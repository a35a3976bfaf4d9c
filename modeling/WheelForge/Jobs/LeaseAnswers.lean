import WheelForge.Jobs.Operations

/-!
# What the operations with a lease answer

`transact` is the transaction of an operation together with the value it returns, and `perform` its
commit (`perform_eq_commit`). For each operation of the pipeline one lemma says what it answers when
the lease is not held, and what it answers and does to the job row when it is.
-/

set_option autoImplicit false

namespace WheelForge.Jobs

open WheelForge.Relational
open WheelForge.Parser (ParsedRequirements)
open WheelForge.Resolver (ResolutionResult ResolvedPackage)
open WheelForge.Build (DownloadedWheel StaticValidationReport PublishedObject)

/-- The value that an operation with a lease returns. -/
def LeaseOperation.Answer : LeaseOperation → Type
  | .heartbeat | .complete | .retryOrFail .. | .failTerminal .. | .completeParse ..
  | .isCancelRequested | .cancelBuild => Bool
  | .claimParseSubject => Option ParseSubject
  | .claimBuildSubject => Option BuildSubject
  | .advanceBuild .. | .persistResolution .. | .persistPackageResults .. => Unit
  | .appendLog .. => Nat
  | .publishArtifactTerminal .. => Option Uuid

/-- The transaction of an operation at the clock reading `now`. -/
def transact (repo : JobRepository) (lease : JobLease) (now : DateTime) :
    (op : LeaseOperation) → Txn op.Answer
  | .heartbeat => repo.heartbeat lease now
  | .complete => JobRepository.complete lease now
  | .retryOrFail error retryable delay => repo.retryOrFail lease error retryable delay now
  | .failTerminal code error => repo.failTerminal lease code error now
  | .claimParseSubject => repo.claimParseSubject lease now
  | .completeParse parsed key uuids => JobRepository.completeParse lease parsed key uuids now
  | .claimBuildSubject => repo.claimBuildSubject lease now
  | .isCancelRequested => JobRepository.isCancelRequested lease now
  | .cancelBuild => JobRepository.cancelBuild lease now
  | .advanceBuild status progress stage message rowId =>
      repo.advanceBuild lease status progress stage message rowId now
  | .appendLog stage level message context rowId =>
      repo.appendLog lease stage level message context rowId now
  | .persistResolution resolution uuids => repo.persistResolution lease resolution uuids now
  | .persistPackageResults resolution wheels validation failures =>
      repo.persistPackageResults lease resolution wheels validation failures now
  | .publishArtifactTerminal artifactId published filename status expiresAt =>
      JobRepository.publishArtifactTerminal lease artifactId published filename status expiresAt now

theorem perform_eq_commit (repo : JobRepository) (lease : JobLease) (now : DateTime)
    (op : LeaseOperation) (db : Database) :
    perform repo lease now op db = (transact repo lease now op).commit db := by
  cases op <;> rfl

/-- The status of the job row `k`. -/
def Database.jobStatus? (db : Database) (k : Uuid) : Option JobStatus :=
  (db.job? k).map BuildJob.status

theorem Applies.jobStatus? {lease : JobLease} {db db' : Database} {j : BuildJob} {e : Effect}
    (h : Applies lease db db' j e) : db'.jobStatus? lease.id = some (e.job j).status := by
  unfold Database.jobStatus?
  rw [h.job?_self, Option.map_some]

/-- The job row runs under the execution of the lease. -/
def runsUnder (lease : JobLease) (db : Database) : Bool :=
  match db.job? lease.id with
  | some j => decide (j.status = .running) && decide (j.executionId = some lease.executionId)
  | none => false

theorem runsUnder_iff {lease : JobLease} {db : Database} :
    runsUnder lease db = true ↔ ∃ j, db.job? lease.id = some j ∧ j.status = .running ∧
      j.executionId = some lease.executionId := by
  unfold runsUnder
  cases h : db.job? lease.id with
  | none => simp
  | some j => simp

section Answers

variable {repo : JobRepository} {lease : JobLease} {now : DateTime} {db : Database}

theorem runsUnder_of_owned {j : BuildJob} (h : Owned db lease now j) :
    runsUnder lease db = true :=
  runsUnder_iff.2 ⟨j, h.found, h.running, h.execution⟩

/-- A lease is not held, or a row says under which conditions it is. -/
theorem owns_cases (lease : JobLease) (now : DateTime) (db : Database) :
    owns db lease now = false ∨ ∃ j, Owned db lease now j := by
  cases ho : owns db lease now with
  | false => exact Or.inl rfl
  | true => exact Or.inr (owns_eq_true_iff.1 ho)

variable (repo lease now db) in
theorem failTerminal_answer (code error : String) :
    (owns db lease now = false ∧ repo.failTerminal lease code error now db = .ok (false, db)) ∨
      owns db lease now = true ∧
        ∃ db', repo.failTerminal lease code error now db = .ok (true, db') ∧
          db'.jobStatus? lease.id = some .failed := by
  unfold JobRepository.failTerminal
  rcases owns_cases lease now db with ho | ⟨j, hj⟩
  · left
    rw [updateOwnedJob_of_not_owns ho]
    exact ⟨ho, rfl⟩
  · right
    simp only [updateOwnedJob_of_owned hj]
    refine ⟨owns_eq_true_iff.2 ⟨j, hj⟩, _, rfl, ?_⟩
    exact ((Applies.onJob hj.found (fun j => j.failed (repo.sanitizeText error 2000) now)
      fun _ => ⟨rfl, rfl, rfl, rfl⟩).terminalize code (repo.sanitizeText error 2000) now).jobStatus?

variable (repo lease now db) in
theorem retryOrFail_answer (error : String) (retryable : Bool) (delay : Int) :
    (owns db lease now = false ∧
        repo.retryOrFail lease error retryable delay now db = .ok (false, db)) ∨
      owns db lease now = true ∧
        ∃ db', repo.retryOrFail lease error retryable delay now db = .ok (true, db') ∧
          db'.jobStatus? lease.id =
            some (if retryable && decide (lease.attempts < lease.maxAttempts) then .ready
              else .failed) := by
  unfold JobRepository.retryOrFail
  rcases owns_cases lease now db with ho | ⟨j, hj⟩
  · left
    simp only [updateOwnedJob_of_not_owns ho, ite_self]
    exact ⟨ho, trivial⟩
  · right
    refine ⟨owns_eq_true_iff.2 ⟨j, hj⟩, ?_⟩
    by_cases hr : (retryable && decide (lease.attempts < lease.maxAttempts)) = true
    · simp only [if_pos hr, updateOwnedJob_of_owned hj]
      refine ⟨_, rfl, ?_⟩
      exact (Applies.onJob hj.found
        (fun j => j.requeued (repo.sanitizeText error 2000) now delay)
        fun _ => ⟨rfl, rfl, rfl, rfl⟩).reset.jobStatus?
    · simp only [if_neg hr, updateOwnedJob_of_owned hj]
      refine ⟨_, rfl, ?_⟩
      exact ((Applies.onJob hj.found (fun j => j.failed (repo.sanitizeText error 2000) now)
        fun _ => ⟨rfl, rfl, rfl, rfl⟩).terminalize "JOB_FAILED" (repo.sanitizeText error 2000) now).jobStatus?

/-- `_fail_subject_claim` fails the job of a held lease. -/
theorem failSubjectClaim_status {j : BuildJob} (hj : Owned db lease now j) (message : String) :
    (repo.failSubjectClaim db lease now message).jobStatus? lease.id = some .failed := by
  unfold JobRepository.failSubjectClaim
  simp only [updateOwnedJob_of_owned hj]
  exact ((Applies.onJob hj.found (fun j => j.failed (repo.sanitizeText message 2000) now)
    fun _ => ⟨rfl, rfl, rfl, rfl⟩).terminalize "SUBJECT_CLAIM_FAILED" message now).jobStatus?

/-- The answers of a subject claim: the lease is not held, the claim fails the job, or the subject
is returned in a state that `P` describes. -/
def ClaimAnswer {α : Type} (lease : JobLease) (now : DateTime) (db : Database)
    (P : Database → Prop) : Except RepositoryError (Option α × Database) → Prop
  | .ok (none, db') => (owns db lease now = false ∧ db' = db) ∨
      owns db lease now = true ∧ db'.jobStatus? lease.id = some .failed
  | .ok (some _, db') => runsUnder lease db' = true ∧ P db'
  | .error e => ∃ message, e = .value message

variable (repo lease now db) in
theorem claimParseSubject_answer :
    ClaimAnswer lease now db
      (fun db' => ∃ f, db'.file? lease.subjectId = some f ∧ f.parseStatus = .parsing)
      (repo.claimParseSubject lease now db) := by
  unfold JobRepository.claimParseSubject
  rcases owns_cases lease now db with ho | ⟨j, hj⟩
  · rw [ho]
    exact Or.inl ⟨ho, rfl⟩
  · have ho := owns_eq_true_iff.2 ⟨j, hj⟩
    rw [if_pos ho]
    cases hf : db.file? lease.subjectId with
    | none => exact Or.inr ⟨ho, failSubjectClaim_status hj _⟩
    | some f =>
        by_cases hs : f.parseStatus ≠ JobRepository.expectedParseStatus lease ∨
            (lease.reclaimed = true ∧ lease.previousExecutionId = none)
        · simp only [if_pos hs]
          exact Or.inr ⟨ho, failSubjectClaim_status hj _⟩
        · simp only [if_neg hs]
          cases hu : db.updateFile lease.subjectId
              (fun r => decide (r.versionNo = f.versionNo) &&
                decide (r.parseStatus = JobRepository.expectedParseStatus lease))
              RequirementFile.claimed with
          | none => exact Or.inr ⟨ho, failSubjectClaim_status hj _⟩
          | some db' =>
              obtain ⟨r, hr, -, rfl⟩ := Database.updateFile_eq_some_iff.1 hu
              have hid : r.claimed.id = lease.subjectId :=
                show r.id = lease.subjectId from file?_id hr
              refine ⟨runsUnder_of_owned (hj.of_job? rfl), r.claimed, ?_, rfl⟩
              rw [Database.file?_setFile, if_pos hid.symm, hr, Option.map_some]

variable (repo lease now db) in
theorem claimBuildSubject_answer :
    ClaimAnswer lease now db
      (fun db' => ∃ t, db'.task? lease.subjectId = some t ∧
        t.executionId = some lease.executionId ∧ t.status = .resolving)
      (repo.claimBuildSubject lease now db) := by
  unfold JobRepository.claimBuildSubject
  rcases owns_cases lease now db with ho | ⟨j, hj⟩
  · rw [ho]
    exact Or.inl ⟨ho, rfl⟩
  · have ho := owns_eq_true_iff.2 ⟨j, hj⟩
    rw [if_pos ho]
    cases ht : db.task? lease.subjectId with
    | none => exact Or.inr ⟨ho, failSubjectClaim_status hj _⟩
    | some row =>
        cases hf : db.file? row.requirementFileId with
        | none =>
            dsimp only
            rw [hf]
            exact Or.inr ⟨ho, failSubjectClaim_status hj _⟩
        | some file =>
            dsimp only
            rw [hf]
            dsimp only
            split
            · exact Or.inr ⟨ho, failSubjectClaim_status hj _⟩
            · split
              · exact Or.inr ⟨ho, failSubjectClaim_status hj _⟩
              · next db' hu =>
                obtain ⟨t, ht', -, rfl⟩ := Database.updateTask_eq_some_iff.1 hu
                have hid : (t.claimed lease.executionId now).id = lease.subjectId :=
                  show t.id = lease.subjectId from task?_id ht'
                split
                · exact ⟨_, rfl⟩
                · split
                  · exact Or.inr ⟨ho, failSubjectClaim_status (hj.setTask _) _⟩
                  · refine ⟨runsUnder_of_owned (hj.setTask _), t.claimed lease.executionId now, ?_, rfl, rfl⟩
                    rw [Database.task?_setTask, if_pos hid.symm, ht', Option.map_some]

/-- An error that is no `LostLeaseError`. -/
def RepositoryError.isLost : RepositoryError → Bool
  | .lostLease _ => true
  | _ => false

variable (now) in
theorem isCancelRequested_answer {t : BuildTask} (ht : db.task? lease.subjectId = some t)
    (he : t.executionId = some lease.executionId) :
    (owns db lease now = false ∧ ∃ message,
        JobRepository.isCancelRequested lease now db = .error (.lostLease message)) ∨
      JobRepository.isCancelRequested lease now db = .ok (t.cancelRequested, db) := by
  unfold JobRepository.isCancelRequested
  rcases owns_cases lease now db with ho | ⟨j, hj⟩
  · rw [ho]
    exact Or.inl ⟨rfl, _, rfl⟩
  · rw [if_pos (owns_eq_true_iff.2 ⟨j, hj⟩), ht]
    exact Or.inr (if_pos he)

variable (now) in
theorem cancelBuild_answer {t : BuildTask} (ht : db.task? lease.subjectId = some t)
    (he : t.executionId = some lease.executionId) :
    (JobRepository.cancelBuild lease now db = .ok (false, db) ∧
        (owns db lease now = false ∨ t.cancelRequested = false)) ∨
      owns db lease now = true ∧
        ∃ db', JobRepository.cancelBuild lease now db = .ok (true, db') ∧
          db'.jobStatus? lease.id = some .cancelled := by
  unfold JobRepository.cancelBuild
  rcases owns_cases lease now db with ho | ⟨j, hj⟩
  · rw [ho]
    exact Or.inl ⟨rfl, Or.inl rfl⟩
  have ho := owns_eq_true_iff.2 ⟨j, hj⟩
  rw [if_pos ho]
  cases hc : t.cancelRequested with
  | false =>
      have hu : db.updateTask lease.subjectId
          (fun t => decide (t.executionId = some lease.executionId) && t.cancelRequested)
          (fun t => t.cancelled now) = none := by
        apply Database.updateTask_eq_none_iff.2
        intro t' ht'
        rw [ht] at ht'
        cases ht'
        simp [hc]
      rw [hu]
      exact Or.inl ⟨rfl, Or.inr rfl⟩
  | true =>
      have hu : db.updateTask lease.subjectId
          (fun t => decide (t.executionId = some lease.executionId) && t.cancelRequested)
          (fun t => t.cancelled now) = some (db.setTask (t.cancelled now)) :=
        Database.updateTask_eq_some_iff.2 ⟨t, ht, by simp [he, hc], rfl⟩
      rw [hu]
      simp only [updateOwnedJob_of_owned (hj.setTask _)]
      refine Or.inr ⟨ho, _, rfl, ?_⟩
      exact (Applies.onJob (hj.setTask _).found (fun j => j.finished .cancelled now)
        fun _ => ⟨rfl, rfl, rfl, rfl⟩).jobStatus?

/-- `_append_log` of the execution that holds the task. -/
theorem appendLogRow_error {stage level message : String} {context : Option Json} {rowId : Uuid}
    {t : BuildTask} (ht : db.task? lease.subjectId = some t)
    (he : t.executionId = some lease.executionId) {e : RepositoryError}
    (h : repo.appendLogRow lease stage level message context rowId now db = .error e) :
    e.isLost = false := by
  unfold JobRepository.appendLogRow at h
  rw [ht] at h
  dsimp only at h
  rw [if_neg (not_not.2 he)] at h
  split at h
  · next e' hsafe =>
    cases h
    unfold JobRepository.safeContext at hsafe
    split at hsafe
    · cases hsafe
    · split at hsafe
      · split at hsafe
        · cases hsafe
        · cases hsafe
          rfl
      · cases hsafe
  · split at h
    · cases h
      rfl
    · cases h

variable (repo now) in
theorem advanceBuild_answer {t : BuildTask} (ht : db.task? lease.subjectId = some t)
    (he : t.executionId = some lease.executionId) (hs : t.status.isTerminal = false)
    (status : BuildStatus) (progress : Int) (stage message : String) (rowId : Uuid)
    {e : RepositoryError}
    (h : repo.advanceBuild lease status progress stage message rowId now db = .error e)
    (hlost : e.isLost = true) : owns db lease now = false := by
  rcases owns_cases lease now db with ho | ⟨j, hj⟩
  · exact ho
  · exfalso
    unfold JobRepository.advanceBuild at h
    have hu : (db.setJob (j.renewed now repo.leaseSeconds)).updateTask lease.subjectId
        (fun t => decide (t.executionId = some lease.executionId) && !t.status.isTerminal)
        (fun t => t.advanced status progress stage) =
          some ((db.setJob (j.renewed now repo.leaseSeconds)).setTask
            (t.advanced status progress stage)) :=
      Database.updateTask_eq_some_iff.2 ⟨t, ht, by simp [he, hs], rfl⟩
    simp only [updateOwnedJob_of_owned hj, hu] at h
    split at h
    · next e' hlog =>
      cases h
      have hid : (t.advanced status progress stage).id = lease.subjectId :=
        show t.id = lease.subjectId from task?_id ht
      have ht' : ((db.setJob (j.renewed now repo.leaseSeconds)).setTask
          (t.advanced status progress stage)).task? lease.subjectId =
            some (t.advanced status progress stage) := by
        rw [Database.task?_setTask, if_pos hid.symm, Database.task?_setJob, ht, Option.map_some]
      rw [appendLogRow_error ht' he hlog] at hlost
      cases hlost
    · cases h

/-- The job still runs under the lease after `advance_build`. -/
theorem advanceBuild_running {status : BuildStatus} {progress : Int} {stage message : String}
    {rowId : Uuid} {u : Unit} {db' : Database}
    (h : repo.advanceBuild lease status progress stage message rowId now db = .ok (u, db')) :
    runsUnder lease db' = true := by
  unfold JobRepository.advanceBuild at h
  split at h
  · cases h
  · next db₁ hu =>
    obtain ⟨j, hj, rfl⟩ := updateOwnedJob_eq_some_iff.1 hu
    split at h
    · cases h
    · next db₂ ht =>
      obtain ⟨t, -, -, rfl⟩ := Database.updateTask_eq_some_iff.1 ht
      split at h
      · cases h
      · next hlog =>
        cases h
        obtain ⟨logs, rfl⟩ := appendLogRow_ok hlog
        refine runsUnder_iff.2 ⟨j.renewed now repo.leaseSeconds, ?_, hj.running, hj.execution⟩
        exact (Applies.onJob hj.found (fun j => j.renewed now repo.leaseSeconds)
          fun _ => ⟨rfl, rfl, rfl, rfl⟩).job?_self

variable (now) in
theorem publishArtifactTerminal_answer {t : BuildTask} (ht : db.task? lease.subjectId = some t)
    (he : t.executionId = some lease.executionId)
    (hc : owns db lease now = true → t.cancelRequested = false) (artifactId : Uuid)
    (published : PublishedObject) (filename : String) (status : BuildStatus)
    (expiresAt : DateTime) :
    (owns db lease now = false ∧ JobRepository.publishArtifactTerminal lease artifactId published
        filename status expiresAt now db = .ok (none, db)) ∨
      (owns db lease now = true ∧
        ∃ db', JobRepository.publishArtifactTerminal lease artifactId published filename status
            expiresAt now db = .ok (some artifactId, db') ∧
          db'.jobStatus? lease.id = some .completed) ∨
      JobRepository.publishArtifactTerminal lease artifactId published filename status expiresAt
        now db = .error .integrity := by
  unfold JobRepository.publishArtifactTerminal
  rcases owns_cases lease now db with ho | ⟨j, hj⟩
  · rw [ho]
    exact Or.inl ⟨rfl, rfl⟩
  · have ho := owns_eq_true_iff.2 ⟨j, hj⟩
    have hnot : ¬ (t.executionId ≠ some lease.executionId ∨ t.cancelRequested = true) := by
      rintro (hne | hr)
      · exact hne he
      · rw [hc ho] at hr
        cases hr
    rw [if_pos ho, ht]
    dsimp only
    rw [if_neg hnot]
    split
    · exact Or.inr (Or.inr rfl)
    · next rows hrows =>
      have hu : Database.updateTask { db with artifacts := rows } lease.subjectId
          (fun t => t.executionId = some lease.executionId) (fun t => t.published status now) =
            some (Database.setTask { db with artifacts := rows } (t.published status now)) :=
        Database.updateTask_eq_some_iff.2 ⟨t, ht, by simp [he], rfl⟩
      have hj' : Owned (Database.setTask { db with artifacts := rows } (t.published status now))
          lease now j := hj.of_job? rfl
      rw [hu]
      unfold completeJob
      simp only [updateOwnedJob_of_owned hj']
      refine Or.inr (Or.inl ⟨owns_eq_true_iff.2 ⟨j, hj⟩, _, rfl, ?_⟩)
      exact (Applies.onJob hj'.found (fun j => j.finished .completed now)
        fun _ => ⟨rfl, rfl, rfl, rfl⟩).jobStatus?

variable (now) in
theorem completeParse_answer {f : RequirementFile} (hf : db.file? lease.subjectId = some f)
    (hs : f.parseStatus = .parsing) (parsed : ParsedRequirements) (key : String)
    (uuids : Nat → Uuid) :
    (owns db lease now = false ∧
        JobRepository.completeParse lease parsed key uuids now db = .ok (false, db)) ∨
      (owns db lease now = true ∧
        ∃ db', JobRepository.completeParse lease parsed key uuids now db = .ok (true, db') ∧
          db'.jobStatus? lease.id = some .completed) ∨
      JobRepository.completeParse lease parsed key uuids now db = .error .integrity := by
  unfold JobRepository.completeParse
  rcases owns_cases lease now db with ho | ⟨j, hj⟩
  · rw [ho]
    exact Or.inl ⟨rfl, rfl⟩
  · rw [if_pos (owns_eq_true_iff.2 ⟨j, hj⟩), hf]
    dsimp only
    rw [if_neg (not_not.2 hs)]
    split
    · exact Or.inr (Or.inr rfl)
    · next items hitems =>
      have hu : Database.updateFile { db with requirementItems := items } lease.subjectId
          (fun r => decide (r.parseStatus = .parsing) && decide (r.versionNo = f.versionNo))
          (fun r => r.parsed parsed.encoding key) =
            some (Database.setFile { db with requirementItems := items }
              (f.parsed parsed.encoding key)) :=
        Database.updateFile_eq_some_iff.2 ⟨f, hf, by simp [hs], rfl⟩
      have hj' : Owned (Database.setFile { db with requirementItems := items }
          (f.parsed parsed.encoding key)) lease now j := hj.of_job? rfl
      rw [hu]
      unfold completeJob
      simp only [updateOwnedJob_of_owned hj']
      refine Or.inr (Or.inl ⟨owns_eq_true_iff.2 ⟨j, hj⟩, _, rfl, ?_⟩)
      exact (Applies.onJob hj'.found (fun j => j.finished .completed now)
        fun _ => ⟨rfl, rfl, rfl, rfl⟩).jobStatus?

end Answers

end WheelForge.Jobs
