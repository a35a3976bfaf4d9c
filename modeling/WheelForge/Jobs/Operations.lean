import WheelForge.Jobs.RepositorySpec

/-!
# Operations under a lease

`LeaseOperation` lists the operations a worker performs with a lease. `perform_of_not_owns` says that
they are no-ops when the lease is not held, `perform_effect` that they have one of the effects of
`LeaseEffect` when it is. `claimPass_cases` gives the outcomes of a pass of `claim_next`.
-/

set_option autoImplicit false

namespace WheelForge.Jobs

open WheelForge.Relational
open WheelForge.Parser (ParsedRequirements)
open WheelForge.Resolver (ResolutionResult)
open WheelForge.Build (DownloadedWheel StaticValidationReport PublishedObject)

/-- An operation of the repository that takes a lease, with its other arguments. -/
inductive LeaseOperation where
  | heartbeat
  | complete
  | retryOrFail (error : String) (retryable : Bool) (retryDelaySeconds : Int)
  | failTerminal (code error : String)
  | claimParseSubject
  | completeParse (parsed : ParsedRequirements) (normalizedObjectKey : String)
      (uuids : Nat → Uuid)
  | claimBuildSubject
  | isCancelRequested
  | cancelBuild
  | advanceBuild (status : BuildStatus) (progress : Int) (stage message : String) (rowId : Uuid)
  | appendLog (stage level message : String) (context : Option Json) (rowId : Uuid)
  | persistResolution (resolution : ResolutionResult) (uuids : Nat → Uuid)
  | persistPackageResults (resolution : ResolutionResult) (wheels : List DownloadedWheel)
      (validation : StaticValidationReport) (downloadFailures : List (String × String))
  | publishArtifactTerminal (artifactId : Uuid) (published : PublishedObject) (filename : String)
      (status : BuildStatus) (expiresAt : DateTime)

/-- The database after the operation ran as one transaction at `now`. -/
def perform (repo : JobRepository) (lease : JobLease) (now : DateTime) :
    LeaseOperation → Database → Database
  | .heartbeat => (repo.heartbeat lease now).commit
  | .complete => (JobRepository.complete lease now).commit
  | .retryOrFail error retryable delay =>
      (repo.retryOrFail lease error retryable delay now).commit
  | .failTerminal code error => (repo.failTerminal lease code error now).commit
  | .claimParseSubject => (repo.claimParseSubject lease now).commit
  | .completeParse parsed key uuids =>
      (JobRepository.completeParse lease parsed key uuids now).commit
  | .claimBuildSubject => (repo.claimBuildSubject lease now).commit
  | .isCancelRequested => (JobRepository.isCancelRequested lease now).commit
  | .cancelBuild => (JobRepository.cancelBuild lease now).commit
  | .advanceBuild status progress stage message rowId =>
      (repo.advanceBuild lease status progress stage message rowId now).commit
  | .appendLog stage level message context rowId =>
      (repo.appendLog lease stage level message context rowId now).commit
  | .persistResolution resolution uuids =>
      (repo.persistResolution lease resolution uuids now).commit
  | .persistPackageResults resolution wheels validation failures =>
      (repo.persistPackageResults lease resolution wheels validation failures now).commit
  | .publishArtifactTerminal artifactId published filename status expiresAt =>
      (JobRepository.publishArtifactTerminal lease artifactId published filename status expiresAt
        now).commit

section Effects

variable {repo : JobRepository} {lease : JobLease} {now : DateTime} {db : Database}

/-! ## Without the lease -/

variable (repo) in
/-- Fencing of one operation: without the lease nothing is written. -/
theorem perform_of_not_owns (h : owns db lease now = false) (op : LeaseOperation) :
    perform repo lease now op db = db := by
  cases op with
  | heartbeat =>
      simp only [perform, Txn.commit, JobRepository.heartbeat, updateOwnedJob_of_not_owns h]
  | complete =>
      simp only [perform, Txn.commit, JobRepository.complete, completeJob,
        updateOwnedJob_of_not_owns h]
  | retryOrFail error retryable delay =>
      simp only [perform, Txn.commit, JobRepository.retryOrFail, updateOwnedJob_of_not_owns h,
        ite_self]
  | failTerminal code error =>
      simp only [perform, Txn.commit, JobRepository.failTerminal, updateOwnedJob_of_not_owns h]
  | claimParseSubject =>
      simp [perform, Txn.commit, JobRepository.claimParseSubject, h]
  | completeParse parsed key uuids =>
      simp [perform, Txn.commit, JobRepository.completeParse, h]
  | claimBuildSubject =>
      simp [perform, Txn.commit, JobRepository.claimBuildSubject, h]
  | isCancelRequested =>
      simp [perform, Txn.commit, JobRepository.isCancelRequested, h]
  | cancelBuild =>
      simp [perform, Txn.commit, JobRepository.cancelBuild, h]
  | advanceBuild status progress stage message rowId =>
      simp only [perform, Txn.commit, JobRepository.advanceBuild, updateOwnedJob_of_not_owns h]
  | appendLog stage level message context rowId =>
      simp [perform, Txn.commit, JobRepository.appendLog, h]
  | persistResolution resolution uuids =>
      rcases Txn.commit_cases (repo.persistResolution lease resolution uuids now) db with
        ⟨u, hu⟩ | hu
      · rw [(persistResolution_ok hu).1] at h
        cases h
      · exact hu
  | persistPackageResults resolution wheels validation failures =>
      simp [perform, Txn.commit, JobRepository.persistPackageResults, h]
  | publishArtifactTerminal artifactId published filename status expiresAt =>
      simp [perform, Txn.commit, JobRepository.publishArtifactTerminal, h]

/-! ## With the lease -/

/-- The effects of the operations on the rows of a held lease. -/
inductive LeaseEffect (repo : JobRepository) (lease : JobLease) (now : DateTime) (db : Database) :
    LeaseOperation → Effect → Prop
  | keep (op : LeaseOperation) : LeaseEffect repo lease now db op Effect.keep
  | renew : LeaseEffect repo lease now db .heartbeat
      (Effect.keep.andJob fun j => j.renewed now repo.leaseSeconds)
  | complete : LeaseEffect repo lease now db .complete
      (Effect.keep.andJob fun j => j.finished .completed now)
  | requeue {error : String} {delay : Int} (h : lease.attempts < lease.maxAttempts) :
      LeaseEffect repo lease now db (.retryOrFail error true delay)
        ((Effect.keep.andJob fun j =>
          j.requeued (repo.sanitizeText error 2000) now delay).andReset lease)
  | fail (op : LeaseOperation) (code error message : String) :
      LeaseEffect repo lease now db op
        ((Effect.keep.andJob fun j => j.failed error now).andTerminalize lease.jobType code message
          now)
  | claimParse {f : RequirementFile} (hf : db.file? lease.subjectId = some f)
      (hs : f.parseStatus = JobRepository.expectedParseStatus lease) :
      LeaseEffect repo lease now db .claimParseSubject
        (Effect.keep.andFile RequirementFile.claimed)
  | completeParse {parsed : ParsedRequirements} {key : String} {uuids : Nat → Uuid}
      {f : RequirementFile} (hf : db.file? lease.subjectId = some f)
      (hs : f.parseStatus = .parsing) :
      LeaseEffect repo lease now db (.completeParse parsed key uuids)
        ((Effect.keep.andFile fun f => f.parsed parsed.encoding key).andJob
          fun j => j.finished .completed now)
  | claimBuild {t : BuildTask} {f : RequirementFile} (ht : db.task? lease.subjectId = some t)
      (hf : db.file? t.requirementFileId = some f) (hb : JobRepository.validBinding t f = true)
      (hc : JobRepository.initialClaim lease t = true ∨
        JobRepository.takeoverClaim lease t = true) :
      LeaseEffect repo lease now db .claimBuildSubject
        (Effect.keep.andTask fun t => t.claimed lease.executionId now)
  | claimBuildMalformed {t : BuildTask} (ht : db.task? lease.subjectId = some t)
      (hc : JobRepository.initialClaim lease t = true ∨
        JobRepository.takeoverClaim lease t = true) (code error message : String) :
      LeaseEffect repo lease now db .claimBuildSubject
        (((Effect.keep.andTask fun t => t.claimed lease.executionId now).andJob
          fun j => j.failed error now).andTerminalize lease.jobType code message now)
  | cancel {t : BuildTask} (ht : db.task? lease.subjectId = some t)
      (he : t.executionId = some lease.executionId) (hc : t.cancelRequested = true) :
      LeaseEffect repo lease now db .cancelBuild
        ((Effect.keep.andTask fun t => t.cancelled now).andJob fun j => j.finished .cancelled now)
  | advance {status : BuildStatus} {progress : Int} {stage message : String} {rowId : Uuid}
      {t : BuildTask} (ht : db.task? lease.subjectId = some t)
      (he : t.executionId = some lease.executionId) (hs : t.status.isTerminal = false) :
      LeaseEffect repo lease now db (.advanceBuild status progress stage message rowId)
        ((Effect.keep.andJob fun j => j.renewed now repo.leaseSeconds).andTask
          fun t => t.advanced status progress stage)
  | publish {artifactId : Uuid} {published : PublishedObject} {filename : String}
      {status : BuildStatus} {expiresAt : DateTime} {t : BuildTask}
      (ht : db.task? lease.subjectId = some t) (he : t.executionId = some lease.executionId)
      (hc : t.cancelRequested = false) :
      LeaseEffect repo lease now db
        (.publishArtifactTerminal artifactId published filename status expiresAt)
        (((Effect.keep.andArtifact
          (JobRepository.artifactRow lease artifactId published filename status expiresAt
            now)).andTask fun t => t.published status now).andJob fun j => j.finished .completed now)

/-- An operation with a held lease has one of the effects of `LeaseEffect`. -/
def Effective (repo : JobRepository) (lease : JobLease) (now : DateTime) (db : Database)
    (j : BuildJob) (op : LeaseOperation) (db' : Database) : Prop :=
  ∃ e, LeaseEffect repo lease now db op e ∧ Applies lease db db' j e

variable {j : BuildJob}

theorem Effective.unchanged (hj : Owned db lease now j) (op : LeaseOperation) :
    Effective repo lease now db j op db :=
  ⟨_, .keep op, Applies.start hj.found⟩

/-- A transaction that rolls back or only writes audit rows. -/
theorem Effective.audit {α : Type} {txn : Txn α} (hj : Owned db lease now j) (op : LeaseOperation)
    (h : ∀ a db', txn db = .ok (a, db') → ∃ packages logs,
      db' = { db with resolvedPackages := packages, buildLogs := logs }) :
    Effective repo lease now db j op (txn.commit db) := by
  rcases txn.commit_cases db with ⟨a, ha⟩ | ha
  · obtain ⟨packages, logs, hd⟩ := h a _ ha
    rw [hd]
    exact ⟨_, .keep op, (Applies.start hj.found).frame rfl rfl rfl rfl⟩
  · rw [ha]
    exact Effective.unchanged hj op

theorem heartbeat_effective (hj : Owned db lease now j) :
    Effective repo lease now db j .heartbeat ((repo.heartbeat lease now).commit db) := by
  unfold Txn.commit JobRepository.heartbeat
  rw [updateOwnedJob_of_owned hj]
  exact ⟨_, .renew, Applies.onJob hj.found (fun j => j.renewed now repo.leaseSeconds) _⟩

theorem complete_effective (hj : Owned db lease now j) :
    Effective repo lease now db j .complete ((JobRepository.complete lease now).commit db) := by
  unfold Txn.commit JobRepository.complete completeJob
  rw [updateOwnedJob_of_owned hj]
  exact ⟨_, .complete, Applies.onJob hj.found (fun j => j.finished .completed now) _⟩

theorem retryOrFail_effective (hj : Owned db lease now j) (error : String) (retryable : Bool)
    (delay : Int) :
    Effective repo lease now db j (.retryOrFail error retryable delay)
      ((repo.retryOrFail lease error retryable delay now).commit db) := by
  unfold Txn.commit JobRepository.retryOrFail
  by_cases hr : (retryable && decide (lease.attempts < lease.maxAttempts)) = true
  · obtain ⟨rfl, hlt⟩ : retryable = true ∧ lease.attempts < lease.maxAttempts := by simpa using hr
    simp only [hr, if_true, updateOwnedJob_of_owned hj]
    exact ⟨_, .requeue hlt,
      (Applies.onJob hj.found
        (fun j => j.requeued (repo.sanitizeText error 2000) now delay) _).reset⟩
  · simp only [hr, Bool.false_eq_true, if_false, updateOwnedJob_of_owned hj]
    exact ⟨_, .fail _ _ _ _,
      (Applies.onJob hj.found
        (fun j => j.failed (repo.sanitizeText error 2000) now) _).terminalize _ _ _⟩

theorem failTerminal_effective (hj : Owned db lease now j) (code error : String) :
    Effective repo lease now db j (.failTerminal code error)
      ((repo.failTerminal lease code error now).commit db) := by
  unfold Txn.commit JobRepository.failTerminal
  simp only [updateOwnedJob_of_owned hj]
  exact ⟨_, .fail _ _ _ _,
    (Applies.onJob hj.found
      (fun j => j.failed (repo.sanitizeText error 2000) now) _).terminalize _ _ _⟩

/-- `_fail_subject_claim` under a held lease. -/
theorem failSubjectClaim_effective (hj : Owned db lease now j) (op : LeaseOperation)
    (message : String) :
    Effective repo lease now db j op (repo.failSubjectClaim db lease now message) := by
  unfold JobRepository.failSubjectClaim
  rw [updateOwnedJob_of_owned hj]
  exact ⟨_, .fail _ _ _ _,
    (Applies.onJob hj.found
      (fun j => j.failed (repo.sanitizeText message 2000) now) _).terminalize _ _ _⟩

theorem claimParseSubject_effective (hj : Owned db lease now j) :
    Effective repo lease now db j .claimParseSubject
      ((repo.claimParseSubject lease now).commit db) := by
  unfold Txn.commit JobRepository.claimParseSubject
  rw [if_pos (owns_eq_true_iff.2 ⟨j, hj⟩)]
  cases hf : db.file? lease.subjectId with
  | none => exact failSubjectClaim_effective hj _ _
  | some f =>
      by_cases hs : f.parseStatus ≠ JobRepository.expectedParseStatus lease ∨
          (lease.reclaimed = true ∧ lease.previousExecutionId = none)
      · simp only [if_pos hs]
        exact failSubjectClaim_effective hj _ _
      · simp only [if_neg hs]
        cases hu : db.updateFile lease.subjectId
            (fun r => decide (r.versionNo = f.versionNo) &&
              decide (r.parseStatus = JobRepository.expectedParseStatus lease))
            RequirementFile.claimed with
        | none => exact failSubjectClaim_effective hj _ _
        | some db' =>
            obtain ⟨f', hf', hc, rfl⟩ := Database.updateFile_eq_some_iff.1 hu
            have hst : f'.parseStatus = JobRepository.expectedParseStatus lease := by
              simp only [Bool.and_eq_true, decide_eq_true_eq] at hc
              exact hc.2
            exact ⟨_, .claimParse hf' hst, (Applies.start hj.found).setFile hf' _ _⟩

theorem completeParse_effective (hj : Owned db lease now j) (parsed : ParsedRequirements)
    (key : String) (uuids : Nat → Uuid) :
    Effective repo lease now db j (.completeParse parsed key uuids)
      ((JobRepository.completeParse lease parsed key uuids now).commit db) := by
  unfold Txn.commit JobRepository.completeParse
  rw [if_pos (owns_eq_true_iff.2 ⟨j, hj⟩)]
  cases hf : db.file? lease.subjectId with
  | none => exact Effective.unchanged hj _
  | some f =>
      by_cases hs : f.parseStatus ≠ .parsing
      · simp only [if_pos hs]
        exact Effective.unchanged hj _
      · simp only [if_neg hs]
        split
        · next hok =>
          split at hok
          · cases hok
          · next items hitems =>
            split at hok
            · cases hok
            · next db' hu =>
              split at hok
              · cases hok
              · next db'' hc =>
                cases hok
                obtain ⟨f', hf', -, rfl⟩ := Database.updateFile_eq_some_iff.1 hu
                obtain ⟨j', hj', rfl⟩ := updateOwnedJob_eq_some_iff.1 hc
                have hjj : j' = j := hj'.eq (hj.of_job? rfl)
                subst hjj
                have happ : Applies lease db { db with requirementItems := items } j' Effect.keep :=
                  (Applies.start hj.found).frame rfl rfl rfl rfl
                exact ⟨_, .completeParse hf (not_not.1 hs),
                  (happ.setFile hf' (fun f => f.parsed parsed.encoding key) _).setJob
                    (fun j => j.finished .completed now) _⟩
        · exact Effective.unchanged hj _

theorem claimBuildSubject_effective (hj : Owned db lease now j) :
    Effective repo lease now db j .claimBuildSubject
      ((repo.claimBuildSubject lease now).commit db) := by
  unfold Txn.commit JobRepository.claimBuildSubject
  rw [if_pos (owns_eq_true_iff.2 ⟨j, hj⟩)]
  cases ht : db.task? lease.subjectId with
  | none => exact failSubjectClaim_effective hj _ _
  | some t =>
      simp only
      cases hf : db.file? t.requirementFileId with
      | none => exact failSubjectClaim_effective hj _ _
      | some f =>
          simp only
          by_cases hb : (!JobRepository.validBinding t f ||
              !(JobRepository.initialClaim lease t || JobRepository.takeoverClaim lease t)) = true
          · simp only [if_pos hb]
            exact failSubjectClaim_effective hj _ _
          · simp only [if_neg hb]
            obtain ⟨hv, hc⟩ : JobRepository.validBinding t f = true ∧
                (JobRepository.initialClaim lease t = true ∨
                  JobRepository.takeoverClaim lease t = true) := by
              simp only [Bool.or_eq_true, Bool.not_eq_true', not_or, Bool.not_eq_false] at hb
              exact hb
            split
            · next hok =>
              split at hok
              · cases hok
                exact failSubjectClaim_effective hj _ _
              · next db' hu =>
                obtain ⟨t', ht', -, rfl⟩ := Database.updateTask_eq_some_iff.1 hu
                rw [ht] at ht'
                cases ht'
                have happ := (Applies.start hj.found).setTask ht
                  (fun t => t.claimed lease.executionId now)
                  (fun _ => ⟨rfl, rfl, rfl, rfl, rfl, rfl, rfl⟩)
                split at hok
                · cases hok
                · split at hok
                  · cases hok
                    unfold JobRepository.failSubjectClaim
                    rw [updateOwnedJob_of_owned (hj.setTask _)]
                    exact ⟨_, .claimBuildMalformed ht hc _ _ _,
                      (happ.setJob (fun j => j.failed _ now) _).terminalize _ _ _⟩
                  · cases hok
                    exact ⟨_, .claimBuild ht hf hv hc, happ⟩
            · exact Effective.unchanged hj _

theorem cancelBuild_effective (hj : Owned db lease now j) :
    Effective repo lease now db j .cancelBuild
      ((JobRepository.cancelBuild lease now).commit db) := by
  unfold Txn.commit JobRepository.cancelBuild
  rw [if_pos (owns_eq_true_iff.2 ⟨j, hj⟩)]
  cases hu : db.updateTask lease.subjectId
      (fun t => decide (t.executionId = some lease.executionId) && t.cancelRequested)
      (fun t => t.cancelled now) with
  | none => exact Effective.unchanged hj _
  | some db' =>
      obtain ⟨t, ht, hc, rfl⟩ := Database.updateTask_eq_some_iff.1 hu
      obtain ⟨he, hreq⟩ : t.executionId = some lease.executionId ∧ t.cancelRequested = true := by
        simpa using hc
      simp only [updateOwnedJob_of_owned (hj.setTask _)]
      exact ⟨_, .cancel ht he hreq, ((Applies.start hj.found).setTask ht
        (fun t => t.cancelled now) _).setJob (fun j => j.finished .cancelled now) _⟩

theorem advanceBuild_effective (hj : Owned db lease now j) (status : BuildStatus)
    (progress : Int) (stage message : String) (rowId : Uuid) :
    Effective repo lease now db j (.advanceBuild status progress stage message rowId)
      ((repo.advanceBuild lease status progress stage message rowId now).commit db) := by
  unfold Txn.commit JobRepository.advanceBuild
  rw [updateOwnedJob_of_owned hj]
  split
  · next hok =>
    simp only at hok
    split at hok
    · cases hok
    · next db' hu =>
      obtain ⟨t, ht, hc, rfl⟩ := Database.updateTask_eq_some_iff.1 hu
      obtain ⟨he, hs⟩ : t.executionId = some lease.executionId ∧ t.status.isTerminal = false := by
        simpa using hc
      split at hok
      · cases hok
      · next hlog =>
        cases hok
        obtain ⟨logs, rfl⟩ := appendLogRow_ok hlog
        exact ⟨_, .advance ht he hs,
          ((Applies.onJob hj.found (fun j => j.renewed now repo.leaseSeconds) _).setTask ht
            (fun t => t.advanced status progress stage) _).frame rfl rfl rfl rfl⟩
  · exact Effective.unchanged hj _

theorem publishArtifactTerminal_effective (hj : Owned db lease now j) (artifactId : Uuid)
    (published : PublishedObject) (filename : String) (status : BuildStatus)
    (expiresAt : DateTime) :
    Effective repo lease now db j
      (.publishArtifactTerminal artifactId published filename status expiresAt)
      ((JobRepository.publishArtifactTerminal lease artifactId published filename status expiresAt
        now).commit db) := by
  unfold Txn.commit JobRepository.publishArtifactTerminal
  rw [if_pos (owns_eq_true_iff.2 ⟨j, hj⟩)]
  cases ht : db.task? lease.subjectId with
  | none => exact Effective.unchanged hj _
  | some t =>
      by_cases hc : t.executionId ≠ some lease.executionId ∨ t.cancelRequested = true
      · simp only [if_pos hc]
        exact Effective.unchanged hj _
      · simp only [if_neg hc]
        obtain ⟨he, hreq⟩ : t.executionId = some lease.executionId ∧
            t.cancelRequested = false := by simpa using hc
        split
        · next hok =>
          split at hok
          · cases hok
          · next rows hrows =>
            split at hok
            · cases hok
            · next db' hu =>
              obtain ⟨t', ht', -, rfl⟩ := Database.updateTask_eq_some_iff.1 hu
              split at hok
              · cases hok
              · next db'' hcomp =>
                cases hok
                obtain ⟨j', hj', rfl⟩ := updateOwnedJob_eq_some_iff.1 hcomp
                have hjj : j' = j := hj'.eq (hj.of_job? rfl)
                subst hjj
                have hins := insertArtifact_eq_some hrows
                exact ⟨_, .publish ht he hreq,
                  (((Applies.start hj.found).insertArtifact hins).setTask ht'
                    (fun t => t.published status now) _).setJob
                      (fun j => j.finished .completed now) _⟩
        · exact Effective.unchanged hj _

variable (repo) in
/-- What an operation with a held lease does. -/
theorem perform_effective (hj : Owned db lease now j) (op : LeaseOperation) :
    Effective repo lease now db j op (perform repo lease now op db) := by
  cases op with
  | heartbeat => exact heartbeat_effective hj
  | complete => exact complete_effective hj
  | retryOrFail error retryable delay => exact retryOrFail_effective hj error retryable delay
  | failTerminal code error => exact failTerminal_effective hj code error
  | claimParseSubject => exact claimParseSubject_effective hj
  | completeParse parsed key uuids => exact completeParse_effective hj parsed key uuids
  | claimBuildSubject => exact claimBuildSubject_effective hj
  | isCancelRequested =>
      refine Effective.audit hj _ fun a db' h => ⟨db.resolvedPackages, db.buildLogs, ?_⟩
      unfold JobRepository.isCancelRequested at h
      split at h
      · split at h
        · split at h <;> cases h
          rfl
        · cases h
      · cases h
  | cancelBuild => exact cancelBuild_effective hj
  | advanceBuild status progress stage message rowId =>
      exact advanceBuild_effective hj status progress stage message rowId
  | appendLog stage level message context rowId =>
      refine Effective.audit hj _ fun a db' h => ?_
      unfold JobRepository.appendLog at h
      split at h
      · obtain ⟨logs, rfl⟩ := appendLogRow_ok h
        exact ⟨db.resolvedPackages, logs, rfl⟩
      · cases h
  | persistResolution resolution uuids =>
      exact Effective.audit hj _ fun a db' h => (persistResolution_ok h).2
  | persistPackageResults resolution wheels validation failures =>
      refine Effective.audit hj _ fun a db' h => ?_
      obtain ⟨packages, rfl⟩ := persistPackageResults_ok h
      exact ⟨packages, db.buildLogs, rfl⟩
  | publishArtifactTerminal artifactId published filename status expiresAt =>
      exact publishArtifactTerminal_effective hj artifactId published filename status expiresAt

end Effects

/-! ## Claiming a job -/

/-- The rows a pass of `claim_next` may choose: a job that is due, or one whose lease expired. -/
structure Claimable (db : Database) (locked : Uuid → Bool) (now : DateTime) (row : BuildJob) :
    Prop where
  chosen : (claimCandidate db locked now <|> expiredClaimCandidate db locked now) = some row
  found : db.job? row.id = some row
  unlocked : locked row.id = false
  due : (row.status = .ready ∧ row.availableAt ≤ now) ∨
    (row.status = .running ∧ ∃ expires, row.leaseExpiresAt = some expires ∧ expires ≤ now)

theorem claimable_of_chosen {db : Database} {locked : Uuid → Bool} {now : DateTime}
    {row : BuildJob}
    (h : (claimCandidate db locked now <|> expiredClaimCandidate db locked now) = some row) :
    Claimable db locked now row := by
  cases hc : claimCandidate db locked now with
  | some r =>
      have hr : r = row := by
        rw [hc] at h
        cases h
        rfl
      subst hr
      obtain ⟨hm, hp⟩ := Table.of_first? hc
      simp only [Bool.and_eq_true, decide_eq_true_eq, Bool.not_eq_true'] at hp
      exact ⟨h, Table.find?_of_mem hm, hp.2, Or.inl hp.1⟩
  | none =>
      have he : expiredClaimCandidate db locked now = some row := by
        rw [hc] at h
        exact h
      obtain ⟨hm, hp⟩ := Table.of_first? he
      simp only [Bool.and_eq_true, decide_eq_true_eq, Bool.not_eq_true'] at hp
      obtain ⟨⟨hs, hx⟩, hl⟩ := hp
      refine ⟨h, Table.find?_of_mem hm, hl, Or.inr ⟨hs, ?_⟩⟩
      cases hexp : row.leaseExpiresAt with
      | none => rw [hexp] at hx; cases hx
      | some expires =>
          rw [hexp] at hx
          exact ⟨expires, rfl, of_decide_eq_true hx⟩

/-- The outcomes of a pass of `claim_next`. -/
inductive ClaimCase (repo : JobRepository) (workerId : String) (executionId : Uuid)
    (locked : Uuid → Bool) (now : DateTime) (db : Database) : ClaimPass → Database → Prop
  | idle : ClaimCase repo workerId executionId locked now db .idle db
  | exhausted {row : BuildJob} {db' : Database} (hr : Claimable db locked now row)
      (ha : row.maxAttempts ≤ row.attempts)
      (happ : Applies (repo.leaseOf row workerId executionId) db db' row
        ((Effect.keep.andJob fun j => j.failed exhaustedMessage now).andTerminalize row.jobType
          "JOB_ATTEMPTS_EXHAUSTED" exhaustedMessage now)) :
      ClaimCase repo workerId executionId locked now db .again db'
  | leased {row : BuildJob} {db' : Database} (hr : Claimable db locked now row)
      (ha : row.attempts < row.maxAttempts)
      (happ : Applies (repo.leaseOf row workerId executionId) db db' row
        (Effect.keep.andJob fun j => j.leased workerId executionId now repo.leaseSeconds)) :
      ClaimCase repo workerId executionId locked now db
        (.leased (repo.leaseOf row workerId executionId)) db'

theorem claimPass_cases (repo : JobRepository) (workerId : String) (executionId : Uuid)
    (locked : Uuid → Bool) (now : DateTime) (db : Database) :
    ClaimCase repo workerId executionId locked now db
      (repo.claimPass workerId executionId locked now db).1
      (repo.claimPass workerId executionId locked now db).2 := by
  unfold JobRepository.claimPass
  cases hrow : (claimCandidate db locked now <|> expiredClaimCandidate db locked now) with
  | none => exact .idle
  | some row =>
      have hr := claimable_of_chosen hrow
      have hver : ∀ f : BuildJob → BuildJob,
          db.updateJob row.id (fun j => decide (j.versionNo = row.versionNo)) f =
            some (db.setJob (f row)) := fun f =>
        Database.updateJob_eq_some_iff.2 ⟨row, hr.found, by simp, rfl⟩
      by_cases ha : row.maxAttempts ≤ row.attempts
      · simp only [if_pos ha, terminalizeExhausted, hver]
        exact .exhausted hr ha
          ((Applies.onJob hr.found (fun j => j.failed exhaustedMessage now) _).terminalize _ _ _)
      · simp only [if_neg ha, hver]
        exact .leased hr (Nat.lt_of_not_le ha)
          (Applies.onJob hr.found
            (fun j => j.leased workerId executionId now repo.leaseSeconds) _)

end WheelForge.Jobs
