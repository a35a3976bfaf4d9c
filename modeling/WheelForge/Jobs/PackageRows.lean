import WheelForge.Jobs.LeaseAnswers
import WheelForge.Jobs.StepEffect

/-!
# The rows of the resolved packages

`persist_resolution` leaves one row for each package of the task (`persistResolution_packages`), and
`persist_package_results` finds it as long as the rows of the task are left alone
(`persistPackageResults_answer`). Only these two operations write the table, and only the rows of
their own task (`perform_packageCount`, `SystemStep.packageCount`).
-/

set_option autoImplicit false

namespace WheelForge.Jobs

open WheelForge.Relational
open WheelForge.Transition
open WheelForge.Api
open WheelForge.Resolver (ResolutionResult ResolvedPackage)
open WheelForge.Build (DownloadedWheel StaticValidationReport PublishedObject)
open WheelForge.Parser (ParsedRequirements)

/-- The rows of a package of a task. -/
def isPackageRow (taskId : Uuid) (name : String) (r : ResolvedPackageRow) : Bool :=
  decide (r.buildTaskId = taskId) && decide (r.normalizedName = name)

/-- The number of rows of a package of a task. -/
def Database.packageCount (db : Database) (taskId : Uuid) (name : String) : Nat :=
  db.resolvedPackages.countWhere (isPackageRow taskId name)

/-! ## Inserting and updating -/

section Rows

variable {taskId : Uuid} {name : String} {table table' : Table ResolvedPackageRow}

/-- A bulk insert changes no row of a package that has one. -/
theorem insertPackages_count {rows : List ResolvedPackageRow}
    (h : JobRepository.insertPackages rows table = some table')
    (hc : 1 ≤ table.countWhere (isPackageRow taskId name)) :
    table'.countWhere (isPackageRow taskId name) =
      table.countWhere (isPackageRow taskId name) := by
  induction rows generalizing table with
  | nil =>
      cases h
      rfl
  | cons row rows ih =>
      unfold JobRepository.insertPackages at h
      split at h
      · cases h
      · next hfree =>
        split at h
        · cases h
        · next table₁ hins =>
          have hrow : isPackageRow taskId name row = false := by
            cases hr : isPackageRow taskId name row with
            | false => rfl
            | true =>
                exfalso
                obtain ⟨x, hx⟩ := List.exists_mem_of_length_pos hc
                obtain ⟨hmem, hp⟩ := List.mem_filter.1 hx
                apply hfree
                simp only [isPackageRow, Bool.and_eq_true, decide_eq_true_eq] at hr hp
                refine List.any_eq_true.2 ⟨x, hmem, ?_⟩
                simp [hp.1, hp.2, hr.1, hr.2]
          have hcount := Table.countWhere_insert? (q := isPackageRow taskId name) hins
          rw [hrow] at hcount
          have heq : table₁.countWhere (isPackageRow taskId name) =
              table.countWhere (isPackageRow taskId name) := by simpa using hcount
          rw [ih h (by rw [heq]; exact hc), heq]

/-- A bulk insert leaves exactly one row of each inserted package. -/
theorem insertPackages_one {rows : List ResolvedPackageRow}
    (h : JobRepository.insertPackages rows table = some table') :
    ∀ row ∈ rows, table'.countWhere (isPackageRow row.buildTaskId row.normalizedName) = 1 := by
  induction rows generalizing table with
  | nil => exact fun _ h => absurd h List.not_mem_nil
  | cons row rows ih =>
      unfold JobRepository.insertPackages at h
      split at h
      · cases h
      · next hfree =>
        split at h
        · cases h
        · next table₁ hins =>
          intro x hx
          rcases List.mem_cons.1 hx with rfl | hx
          · have hself : isPackageRow x.buildTaskId x.normalizedName x = true := by
              simp [isPackageRow]
            have hnone : table.countWhere (isPackageRow x.buildTaskId x.normalizedName) = 0 := by
              refine List.length_eq_zero_iff.2 (List.filter_eq_nil_iff.2 fun r hr hp => hfree ?_)
              exact List.any_eq_true.2 ⟨r, hr, hp⟩
            have hone := Table.countWhere_insert?
              (q := isPackageRow x.buildTaskId x.normalizedName) hins
            rw [hnone, hself] at hone
            rw [insertPackages_count h (by rw [hone]; exact Nat.le_refl 1), hone]
            rfl
          · exact ih h x hx

/-- A bulk insert of rows of another task changes no row of a task. -/
theorem insertPackages_other {rows : List ResolvedPackageRow}
    (h : JobRepository.insertPackages rows table = some table')
    (hrows : ∀ row ∈ rows, row.buildTaskId ≠ taskId) :
    table'.countWhere (isPackageRow taskId name) =
      table.countWhere (isPackageRow taskId name) := by
  induction rows generalizing table with
  | nil =>
      cases h
      rfl
  | cons row rows ih =>
      unfold JobRepository.insertPackages at h
      split at h
      · cases h
      · split at h
        · cases h
        · next table₁ hins =>
          rw [ih h fun x hx => hrows x (List.mem_cons_of_mem _ hx), Table.countWhere_insert? hins]
          have hne := hrows row List.mem_cons_self
          simp [isPackageRow, hne]

end Rows

theorem packageRow_key (taskId rowId : Uuid) (resolution : ResolutionResult)
    (audits : String → Json) (package : ResolvedPackage) :
    (JobRepository.packageRow taskId rowId resolution audits package).buildTaskId = taskId ∧
      (JobRepository.packageRow taskId rowId resolution audits package).normalizedName =
        package.name :=
  ⟨rfl, rfl⟩

section Operations

variable {repo : JobRepository} {lease : JobLease} {now : DateTime} {db db' : Database}

/-- After `persist_resolution` every package of the resolution has one row. -/
theorem persistResolution_packages {resolution : ResolutionResult} {uuids : Nat → Uuid} {u : Unit}
    (h : repo.persistResolution lease resolution uuids now db = .ok (u, db')) :
    ∀ package ∈ resolution.packages, db'.packageCount lease.subjectId package.name = 1 := by
  intro package hp
  unfold JobRepository.persistResolution at h
  split at h
  · cases h
  · split at h
    · next audits summary _ _ =>
      split at h
      · split at h
        · cases h
        · next packages hins =>
          split at h
          · cases h
          · next hlog =>
            cases h
            obtain ⟨logs, rfl⟩ := appendLogRow_ok hlog
            obtain ⟨i, hi, rfl⟩ := List.getElem_of_mem hp
            have hmem : JobRepository.packageRow lease.subjectId (uuids (i + 1)) resolution audits
                resolution.packages[i] ∈
                  JobRepository.packageRows lease.subjectId uuids resolution audits := by
              refine List.mem_iff_getElem.2 ⟨i, ?_, ?_⟩
              · simpa [JobRepository.packageRows] using hi
              · simp [JobRepository.packageRows]
            exact insertPackages_one hins _ hmem
      · cases h
    · cases h

variable (repo) in
/-- `persist_resolution` of the execution that holds the task does not lose the lease. -/
theorem persistResolution_error (ho : owns db lease now = true) {t : BuildTask}
    (ht : db.task? lease.subjectId = some t) (hx : t.executionId = some lease.executionId)
    {resolution : ResolutionResult} {uuids : Nat → Uuid} {e : RepositoryError}
    (h : repo.persistResolution lease resolution uuids now db = .error e) : e.isLost = false := by
  unfold JobRepository.persistResolution at h
  split at h
  · cases h
    rfl
  · split at h
    · split at h
      · cases h
        rfl
      · split at h
        · next hlog =>
          cases h
          refine appendLogRow_error ?_ hx hlog
          exact ht
        · cases h
    · cases h
      rfl

theorem persistPackages_some (repo : JobRepository) {taskId : Uuid}
    {resolution : ResolutionResult} {wheels : List DownloadedWheel}
    {validation : StaticValidationReport} {failures : List (String × String)}
    {packages : List ResolvedPackage} {table : Table ResolvedPackageRow}
    (h : ∀ package ∈ packages, table.countWhere (isPackageRow taskId package.name) = 1) :
    ∃ table', repo.persistPackages taskId resolution wheels validation failures packages table =
      some table' := by
  induction packages generalizing table with
  | nil => exact ⟨table, rfl⟩
  | cons package packages ih =>
      unfold JobRepository.persistPackages JobRepository.persistPackageResult
      have hone : (table.countWhere fun r : ResolvedPackageRow =>
          decide (r.buildTaskId = taskId) && decide (r.normalizedName = package.name)) = 1 :=
        h package List.mem_cons_self
      simp only [hone, if_true]
      apply ih
      intro p hp
      rw [Table.countWhere_updateWhere (by intro _; rfl)]
      exact h p (List.mem_cons_of_mem _ hp)

variable (repo now) in
/-- `persist_package_results` under a held lease finds the rows of the packages. -/
theorem persistPackageResults_answer {resolution : ResolutionResult}
    (h : ∀ package ∈ resolution.packages, db.packageCount lease.subjectId package.name = 1)
    (wheels : List DownloadedWheel) (validation : StaticValidationReport)
    (failures : List (String × String)) {e : RepositoryError}
    (he : repo.persistPackageResults lease resolution wheels validation failures now db = .error e) :
    owns db lease now = false := by
  cases ho : owns db lease now with
  | false => rfl
  | true =>
      exfalso
      unfold JobRepository.persistPackageResults at he
      obtain ⟨table', ht⟩ : ∃ table', repo.persistPackages lease.subjectId resolution wheels
          validation failures resolution.packages db.resolvedPackages = some table' :=
        persistPackages_some repo h
      rw [if_pos ho, ht] at he
      cases he

end Operations

/-! ## The other writes -/

section Frame

variable {repo : JobRepository} {encode : WireEncoder} {lease : JobLease} {now : DateTime}
  {db db' : Database} {a : Bool}

theorem updateOwnedJob_packages {f : BuildJob → BuildJob}
    (h : updateOwnedJob db lease now f = some db') : db'.resolvedPackages = db.resolvedPackages := by
  obtain ⟨j, -, rfl⟩ := updateOwnedJob_eq_some_iff.1 h
  rfl

theorem updateTask_packages {k : Uuid} {c : BuildTask → Bool} {f : BuildTask → BuildTask}
    (h : db.updateTask k c f = some db') : db'.resolvedPackages = db.resolvedPackages := by
  obtain ⟨t, -, -, rfl⟩ := Database.updateTask_eq_some_iff.1 h
  rfl

theorem updateFile_packages {k : Uuid} {c : RequirementFile → Bool}
    {f : RequirementFile → RequirementFile} (h : db.updateFile k c f = some db') :
    db'.resolvedPackages = db.resolvedPackages := by
  obtain ⟨r, -, -, rfl⟩ := Database.updateFile_eq_some_iff.1 h
  rfl

theorem terminalizeSubject_packages (db : Database) (jobType : JobType) (subjectId : Uuid)
    (now : DateTime) (code message : String) :
    (terminalizeSubject db jobType subjectId now code message).resolvedPackages =
      db.resolvedPackages := by
  unfold terminalizeSubject
  cases jobType with
  | requirementParse =>
      obtain ⟨files, hf⟩ : ∃ files, (db.updateFile subjectId
          (fun f => !(f.parseStatus = .parsed || f.parseStatus = .failed))
          (fun f => f.terminalized message)).getD db = { db with requirementFiles := files } :=
        Database.updateFile_getD_frame _ _
      dsimp only
      rw [hf]
  | build =>
      obtain ⟨tasks, ht⟩ : ∃ tasks, (db.updateTask subjectId (fun t => !t.status.isTerminal)
          (fun t => t.terminalized code message now)).getD db =
            { db with buildTasks := tasks } := Database.updateTask_getD_frame _ _
      dsimp only
      rw [ht]

theorem resetSubjectForRetry_packages (db : Database) (lease : JobLease) :
    (resetSubjectForRetry db lease).resolvedPackages = db.resolvedPackages := by
  unfold resetSubjectForRetry
  cases lease.jobType with
  | build =>
      obtain ⟨tasks, ht⟩ : ∃ tasks, (db.updateTask lease.subjectId
          (fun t => t.executionId = some lease.executionId) BuildTask.requeued).getD db =
            { db with buildTasks := tasks } := Database.updateTask_getD_frame _ _
      dsimp only
      rw [ht]
  | requirementParse =>
      obtain ⟨files, hf⟩ : ∃ files, (db.updateFile lease.subjectId
          (fun f => f.parseStatus = .parsing) RequirementFile.requeued).getD db =
            { db with requirementFiles := files } := Database.updateFile_getD_frame _ _
      dsimp only
      rw [hf]

theorem failSubjectClaim_packages (repo : JobRepository) (db : Database) (lease : JobLease)
    (now : DateTime) (message : String) :
    (repo.failSubjectClaim db lease now message).resolvedPackages = db.resolvedPackages := by
  unfold JobRepository.failSubjectClaim
  split
  · next hu =>
    rw [terminalizeSubject_packages, updateOwnedJob_packages hu]
  · rfl

theorem completeJob_packages (h : completeJob db lease now = some db') :
    db'.resolvedPackages = db.resolvedPackages :=
  updateOwnedJob_packages h

theorem persistResolution_count {taskId : Uuid} (hne : lease.subjectId ≠ taskId)
    {resolution : ResolutionResult} {uuids : Nat → Uuid} {u : Unit}
    (h : repo.persistResolution lease resolution uuids now db = .ok (u, db')) (name : String) :
    db'.packageCount taskId name = db.packageCount taskId name := by
  unfold JobRepository.persistResolution at h
  split at h
  · cases h
  · split at h
    · split at h
      · split at h
        · cases h
        · next packages hins =>
          split at h
          · cases h
          · next hlog =>
            cases h
            obtain ⟨logs, rfl⟩ := appendLogRow_ok hlog
            have hother : ∀ audits, ∀ row ∈ JobRepository.packageRows lease.subjectId uuids
                resolution audits, row.buildTaskId ≠ taskId := by
              intro audits row hrow
              obtain ⟨i, hi, rfl⟩ := List.mem_mapIdx.1 hrow
              exact hne
            refine (insertPackages_other hins (hother _)).trans ?_
            · apply Table.countWhere_deleteWhere
              intro r hr
              simp only [isPackageRow, Bool.and_eq_true, decide_eq_true_eq] at hr
              simp [hr.1, Ne.symm hne]
      · cases h
    · cases h

theorem persistPackages_count {taskId taskId' : Uuid} {resolution : ResolutionResult} {wheels : List DownloadedWheel}
    {validation : StaticValidationReport} {failures : List (String × String)}
    {packages : List ResolvedPackage} {table table' : Table ResolvedPackageRow}
    (h : repo.persistPackages taskId resolution wheels validation failures packages table =
      some table') (name : String) :
    table'.countWhere (isPackageRow taskId' name) =
      table.countWhere (isPackageRow taskId' name) := by
  induction packages generalizing table with
  | nil =>
      cases h
      rfl
  | cons package packages ih =>
      unfold JobRepository.persistPackages at h
      split at h
      · cases h
      · next table₁ hone =>
        unfold JobRepository.persistPackageResult at hone
        dsimp only at hone
        split at hone
        · cases hone
          rw [ih h, Table.countWhere_updateWhere (by intro _; rfl)]
        · cases hone

theorem persistPackageResults_count {taskId : Uuid} {resolution : ResolutionResult} {wheels : List DownloadedWheel}
    {validation : StaticValidationReport} {failures : List (String × String)} {u : Unit}
    (h : repo.persistPackageResults lease resolution wheels validation failures now db =
      .ok (u, db')) (name : String) :
    db'.packageCount taskId name = db.packageCount taskId name := by
  unfold JobRepository.persistPackageResults at h
  split at h
  · split at h
    · next packages hp =>
      cases h
      exact persistPackages_count hp name
    · cases h
  · cases h

/-- The operations that write the rows of the packages. -/
def LeaseOperation.writesPackages : LeaseOperation → Bool
  | .persistResolution .. | .persistPackageResults .. => true
  | _ => false

/-- A transaction that keeps the rows of the packages when it commits. -/
theorem Txn.commit_packages {α : Type} {txn : Txn α}
    (h : ∀ a db', txn db = .ok (a, db') → db'.resolvedPackages = db.resolvedPackages) :
    (txn.commit db).resolvedPackages = db.resolvedPackages := by
  rcases txn.commit_cases db with ⟨a, ha⟩ | ha
  · exact h a _ ha
  · rw [ha]

theorem heartbeat_packages (h : repo.heartbeat lease now db = .ok (a, db')) :
    db'.resolvedPackages = db.resolvedPackages := by
  unfold JobRepository.heartbeat at h
  split at h
  · next hu =>
    cases h
    exact updateOwnedJob_packages hu
  · cases h
    rfl

theorem complete_packages (h : JobRepository.complete lease now db = .ok (a, db')) :
    db'.resolvedPackages = db.resolvedPackages := by
  unfold JobRepository.complete at h
  split at h
  · next hu =>
    cases h
    exact completeJob_packages hu
  · cases h
    rfl

theorem failTerminal_packages {code error : String}
    (h : repo.failTerminal lease code error now db = .ok (a, db')) :
    db'.resolvedPackages = db.resolvedPackages := by
  unfold JobRepository.failTerminal at h
  split at h
  · next hu =>
    cases h
    rw [terminalizeSubject_packages, updateOwnedJob_packages hu]
  · cases h
    rfl

theorem retryOrFail_packages {error : String} {retryable : Bool} {delay : Int}
    (h : repo.retryOrFail lease error retryable delay now db = .ok (a, db')) :
    db'.resolvedPackages = db.resolvedPackages := by
  unfold JobRepository.retryOrFail at h
  split at h
  · split at h
    · next hu =>
      cases h
      rw [resetSubjectForRetry_packages, updateOwnedJob_packages hu]
    · cases h
      rfl
  · split at h
    · next hu =>
      cases h
      rw [terminalizeSubject_packages, updateOwnedJob_packages hu]
    · cases h
      rfl

theorem claimParseSubject_packages {subject : Option ParseSubject}
    (h : repo.claimParseSubject lease now db = .ok (subject, db')) :
    db'.resolvedPackages = db.resolvedPackages := by
  unfold JobRepository.claimParseSubject at h
  split at h
  · split at h
    · cases h
      exact failSubjectClaim_packages _ _ _ _ _
    · split at h
      · cases h
        exact failSubjectClaim_packages _ _ _ _ _
      · split at h
        · cases h
          exact failSubjectClaim_packages _ _ _ _ _
        · next hu =>
          cases h
          exact updateFile_packages hu
  · cases h
    rfl

theorem claimBuildSubject_packages {subject : Option BuildSubject}
    (h : repo.claimBuildSubject lease now db = .ok (subject, db')) :
    db'.resolvedPackages = db.resolvedPackages := by
  unfold JobRepository.claimBuildSubject at h
  split at h
  · split at h
    · cases h
      exact failSubjectClaim_packages _ _ _ _ _
    · split at h
      · cases h
        exact failSubjectClaim_packages _ _ _ _ _
      · split at h
        · cases h
          exact failSubjectClaim_packages _ _ _ _ _
        · split at h
          · cases h
            exact failSubjectClaim_packages _ _ _ _ _
          · next hu =>
            split at h
            · cases h
            · split at h
              · cases h
                rw [failSubjectClaim_packages, updateTask_packages hu]
              · cases h
                exact updateTask_packages hu
  · cases h
    rfl

theorem completeParse_packages {parsed : ParsedRequirements} {key : String} {uuids : Nat → Uuid}
    (h : JobRepository.completeParse lease parsed key uuids now db = .ok (a, db')) :
    db'.resolvedPackages = db.resolvedPackages := by
  unfold JobRepository.completeParse at h
  split at h
  · split at h
    · cases h
      rfl
    · split at h
      · cases h
        rfl
      · split at h
        · cases h
        · split at h
          · cases h
          · next hu =>
            split at h
            · cases h
            · next hd =>
              cases h
              rw [completeJob_packages hd, updateFile_packages hu]
  · cases h
    rfl

theorem isCancelRequested_packages
    (h : JobRepository.isCancelRequested lease now db = .ok (a, db')) :
    db'.resolvedPackages = db.resolvedPackages := by
  unfold JobRepository.isCancelRequested at h
  split at h
  · split at h
    · split at h
      · cases h
        rfl
      · cases h
    · cases h
  · cases h

theorem cancelBuild_packages (h : JobRepository.cancelBuild lease now db = .ok (a, db')) :
    db'.resolvedPackages = db.resolvedPackages := by
  unfold JobRepository.cancelBuild at h
  split at h
  · split at h
    · cases h
      rfl
    · next hu =>
      split at h
      · cases h
      · next hd =>
        cases h
        rw [updateOwnedJob_packages hd, updateTask_packages hu]
  · cases h
    rfl

theorem appendLogRow_packages {stage level message : String} {context : Option Json}
    {rowId : Uuid} {n : Nat}
    (h : repo.appendLogRow lease stage level message context rowId now db = .ok (n, db')) :
    db'.resolvedPackages = db.resolvedPackages := by
  obtain ⟨logs, rfl⟩ := appendLogRow_ok h
  rfl

theorem advanceBuild_packages {status : BuildStatus} {progress : Int} {stage message : String}
    {rowId : Uuid} {u : Unit}
    (h : repo.advanceBuild lease status progress stage message rowId now db = .ok (u, db')) :
    db'.resolvedPackages = db.resolvedPackages := by
  unfold JobRepository.advanceBuild at h
  split at h
  · cases h
  · next hj =>
    split at h
    · cases h
    · next ht =>
      split at h
      · cases h
      · next hlog =>
        cases h
        rw [appendLogRow_packages hlog, updateTask_packages ht, updateOwnedJob_packages hj]

theorem appendLog_packages {stage level message : String} {context : Option Json} {rowId : Uuid}
    {n : Nat} (h : repo.appendLog lease stage level message context rowId now db = .ok (n, db')) :
    db'.resolvedPackages = db.resolvedPackages := by
  unfold JobRepository.appendLog at h
  split at h
  · exact appendLogRow_packages h
  · cases h

theorem publishArtifactTerminal_packages {artifactId : Uuid} {published : PublishedObject}
    {filename : String} {status : BuildStatus} {expiresAt : DateTime} {r : Option Uuid}
    (h : JobRepository.publishArtifactTerminal lease artifactId published filename status expiresAt
      now db = .ok (r, db')) : db'.resolvedPackages = db.resolvedPackages := by
  unfold JobRepository.publishArtifactTerminal at h
  split at h
  · split at h
    · cases h
      rfl
    · split at h
      · cases h
        rfl
      · split at h
        · cases h
        · split at h
          · cases h
          · next hu =>
            split at h
            · cases h
            · next hd =>
              cases h
              rw [completeJob_packages hd, updateTask_packages hu]
  · cases h
    rfl

variable (repo lease now db) in
/-- The other operations leave the rows of the packages alone. -/
theorem perform_packages {op : LeaseOperation} (hop : op.writesPackages = false) :
    (perform repo lease now op db).resolvedPackages = db.resolvedPackages := by
  cases op with
  | heartbeat => exact Txn.commit_packages fun _ _ => heartbeat_packages
  | complete => exact Txn.commit_packages fun _ _ => complete_packages
  | retryOrFail => exact Txn.commit_packages fun _ _ => retryOrFail_packages
  | failTerminal => exact Txn.commit_packages fun _ _ => failTerminal_packages
  | claimParseSubject => exact Txn.commit_packages fun _ _ => claimParseSubject_packages
  | completeParse => exact Txn.commit_packages fun _ _ => completeParse_packages
  | claimBuildSubject => exact Txn.commit_packages fun _ _ => claimBuildSubject_packages
  | isCancelRequested => exact Txn.commit_packages fun _ _ => isCancelRequested_packages
  | cancelBuild => exact Txn.commit_packages fun _ _ => cancelBuild_packages
  | advanceBuild => exact Txn.commit_packages fun _ _ => advanceBuild_packages
  | appendLog => exact Txn.commit_packages fun _ _ => appendLog_packages
  | publishArtifactTerminal =>
      exact Txn.commit_packages fun _ _ => publishArtifactTerminal_packages
  | persistResolution | persistPackageResults => cases hop

variable (repo lease now db) in
/-- An operation of another task leaves the rows of a task alone. -/
theorem perform_packageCount {taskId : Uuid} (hne : lease.subjectId ≠ taskId)
    (op : LeaseOperation) (name : String) :
    (perform repo lease now op db).packageCount taskId name = db.packageCount taskId name := by
  cases hop : op.writesPackages with
  | false => exact congrArg (Table.countWhere · _) (perform_packages repo lease now db hop)
  | true =>
      cases op with
      | persistResolution resolution uuids =>
          rcases Txn.commit_cases (repo.persistResolution lease resolution uuids now) db with
            ⟨u, hu⟩ | hu
          · exact persistResolution_count hne hu name
          · exact congrArg (Database.packageCount · taskId name) hu
      | persistPackageResults resolution wheels validation failures =>
          rcases Txn.commit_cases (repo.persistPackageResults lease resolution wheels validation
            failures now) db with ⟨u, hu⟩ | hu
          · exact persistPackageResults_count hu name
          · exact congrArg (Database.packageCount · taskId name) hu
      | _ => cases hop

theorem claimPass_packages (repo : JobRepository) (workerId : String) (executionId : Uuid)
    (locked : Uuid → Bool) (now : DateTime) (db : Database) :
    (repo.claimPass workerId executionId locked now db).2.resolvedPackages =
      db.resolvedPackages := by
  unfold JobRepository.claimPass
  split
  · rfl
  · next row _ =>
    split
    · show (terminalizeExhausted db row now).resolvedPackages = _
      unfold terminalizeExhausted
      split
      · next hu =>
        obtain ⟨j, -, -, rfl⟩ := Database.updateJob_eq_some_iff.1 hu
        exact terminalizeSubject_packages _ _ _ _ _ _
      · rfl
    · split
      · rfl
      · next hu =>
        obtain ⟨j, -, -, rfl⟩ := Database.updateJob_eq_some_iff.1 hu
        rfl

theorem enqueue_packages {jobType : JobType} {subjectId jobId : Uuid} {payload : Json}
    (h : enqueue encode jobType subjectId payload jobId now db = .ok db') :
    db'.resolvedPackages = db.resolvedPackages := by
  unfold enqueue at h
  split at h
  · cases h
  · split at h
    · cases h
    · cases h
      rfl

theorem saveAndEnqueue_packages {task : BuildTask} {key : String} {jobId : Uuid}
    (h : saveAndEnqueue encode task key jobId now db = .ok db') :
    db'.resolvedPackages = db.resolvedPackages := by
  unfold saveAndEnqueue at h
  split at h
  · cases h
  · unfold enqueueBuild at h
    exact (enqueue_packages h).trans rfl

theorem ApiRequest.run_packages {r : ApiRequest} (h : r.run encode db = .ok db') :
    db'.resolvedPackages = db.resolvedPackages := by
  cases r with
  | create =>
      dsimp only [ApiRequest.run] at h
      unfold Api.create at h
      split at h
      · cases h
      · cases h
      · split at h
        · split at h
          · split at h
            · exact saveAndEnqueue_packages h
            · cases h
          · cases h
        · cases h
  | retry =>
      dsimp only [ApiRequest.run] at h
      unfold Api.retry at h
      split at h
      · cases h
      · split at h
        · split at h
          · cases h
          · split at h
            · cases h
            · exact saveAndEnqueue_packages h
        · cases h
  | delete =>
      dsimp only [ApiRequest.run] at h
      unfold Api.delete at h
      split at h
      · split at h
        · cases h
          rfl
        · cases h
      · cases h
  | upload =>
      dsimp only [ApiRequest.run] at h
      unfold Api.upload at h
      split at h
      · cases h
      · exact (enqueue_packages h).trans rfl

theorem finishCancel_packages {c : CancelTransaction} {matched : List Uuid}
    (h : finishCancel c matched db = .ok db') : db'.resolvedPackages = db.resolvedPackages := by
  unfold finishCancel at h
  split at h
  · cases h
  · split at h
    · cases h
    · cases h
      rfl

/-- A step changes the rows of a task only by an operation that holds a lease on the task. -/
theorem SystemStep.packageCount {s s' : SystemState} {action : SystemAction}
    (h : SystemStep repo encode s action s') {taskId : Uuid}
    (hop : ∀ l t op, action = .operate l t op → op.writesPackages = true →
      l.subjectId = taskId → owns s.db l t = false) (name : String) :
    s'.db.packageCount taskId name = s.db.packageCount taskId name := by
  cases h with
  | claim =>
      exact congrArg (Table.countWhere · _) (claimPass_packages repo _ _ _ _ s.db)
  | @operate l t op hl =>
      by_cases hw : op.writesPackages = true ∧ l.subjectId = taskId
      · exact congrArg (Database.packageCount · taskId name)
          (perform_of_not_owns repo (hop l t op rfl hw.1 hw.2) op)
      · by_cases hs : l.subjectId = taskId
        · have hnot : op.writesPackages = false := by
            cases ho : op.writesPackages with
            | false => rfl
            | true => exact absurd ⟨ho, hs⟩ hw
          exact congrArg (Table.countWhere · _) (perform_packages repo l t s.db hnot)
        · exact perform_packageCount repo l t s.db hs op name
  | request hr => exact congrArg (Table.countWhere · _) (ApiRequest.run_packages hr)
  | beginCancel | matchCancel | abandonCancel => rfl
  | finishCancel hc hm hf => exact congrArg (Table.countWhere · _) (finishCancel_packages hf)

end Frame

end WheelForge.Jobs
