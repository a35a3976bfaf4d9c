import WheelForge.Jobs.JobSystem

/-!
# What a step writes

`RequestEffect`, `LeaseEffect` and `FinishedCancel` give the writes of the API requests, of the
operations under a lease and of a finished `cancel` as lookups in the tables. `StepEffect` collects
them into one case analysis of the steps of the system (`SystemStep.effect`), from which the
invariants are proved.
-/

set_option autoImplicit false

namespace WheelForge.Jobs

open WheelForge.Relational
open WheelForge.Transition
open WheelForge.Api

/-! ## Requests -/

/-- The writes of a request, as lookups in the tables of the job protocol. -/
inductive RequestEffect (db db' : Database) : Prop
  /-- A queued task and its job are inserted. -/
  | build (task : BuildTask) (payload : Json) (jobId : Uuid) (now : DateTime)
      (file : RequirementFile) (key : String)
      (hnew : ∃ userId fileId profileId source mode snapshot, task =
        newTask task.id userId fileId profileId source mode snapshot now)
      (hfile : db.file? task.requirementFileId = some file) (howner : file.userId = task.userId)
      (hkey : file.normalizedObjectKey = some key)
      (hsource : (file.parseStatus = .parsed ∧
          Json.eqString (task.targetSnapshot.get? "profileId") task.targetProfileId = true ∧
          task.targetSnapshot.isDict = true) ∨
        ∃ t, db.task? t.id = some t ∧ t.requirementFileId = task.requirementFileId ∧
          t.targetSnapshot = task.targetSnapshot ∧ t.targetProfileId = task.targetProfileId)
      (htask : db.task? task.id = none) (hjob : db.job? jobId = none)
      (jobs : ∀ k, db'.job? k =
        if k = jobId then some (newJob jobId .build task.id payload now) else db.job? k)
      (tasks : ∀ k, db'.task? k = if k = task.id then some task else db.task? k)
      (files : ∀ k, db'.file? k = db.file? k) (artifacts : db'.artifacts = db.artifacts)
  /-- A pending file and its job are inserted. -/
  | parse (file : RequirementFile) (payload : Json) (jobId : Uuid) (now : DateTime)
      (hnew : file.parseStatus = .pending) (hkey : file.normalizedObjectKey.isSome = true)
      (hfile : db.file? file.id = none) (hjob : db.job? jobId = none)
      (jobs : ∀ k, db'.job? k =
        if k = jobId then some (newJob jobId .requirementParse file.id payload now)
        else db.job? k)
      (tasks : ∀ k, db'.task? k = db.task? k)
      (files : ∀ k, db'.file? k = if k = file.id then some file else db.file? k)
      (artifacts : db'.artifacts = db.artifacts)
  /-- A task is marked deleted. -/
  | delete (task : BuildTask) (now : DateTime) (htask : db.task? task.id = some task)
      (hd : db' = db.setTask (softDelete task now))

theorem saveAndEnqueue_ok {encode : WireEncoder} {task : BuildTask} {key : String} {jobId : Uuid}
    {now : DateTime} {db db' : Database}
    (h : saveAndEnqueue encode task key jobId now db = .ok db') :
    ∃ payload, db.task? task.id = none ∧ db.job? jobId = none ∧
      (∀ k, db'.job? k =
        if k = jobId then some (newJob jobId .build task.id payload now) else db.job? k) ∧
      (∀ k, db'.task? k = if k = task.id then some task else db.task? k) ∧
      (∀ k, db'.file? k = db.file? k) ∧ db'.artifacts = db.artifacts := by
  unfold saveAndEnqueue at h
  split at h
  · cases h
  · next tasks htasks =>
    unfold enqueueBuild enqueue at h
    split at h
    · cases h
    · next wire _ =>
      split at h
      · cases h
      · next jobs hjobs =>
        cases h
        exact ⟨wire, (Table.insert?_eq_some htasks).1, (Table.insert?_eq_some hjobs).1,
          fun k => Table.find?_of_insert? hjobs k, fun k => Table.find?_of_insert? htasks k,
          fun _ => rfl, rfl⟩

theorem ownedFile_ok {db : Database} {userId fileId : Uuid} {file : RequirementFile}
    (h : ownedFile db userId fileId = .ok file) :
    db.file? fileId = some file ∧ file.userId = userId := by
  unfold ownedFile at h
  split at h
  · next f hf =>
    split at h
    · next hu =>
      cases h
      exact ⟨hf, hu⟩
    · cases h
  · cases h

theorem activeOwnedTask_ok {db : Database} {userId taskId : Uuid} {task : BuildTask}
    (h : activeOwnedTask db userId taskId = .ok task) :
    db.task? taskId = some task ∧ task.userId = userId ∧ task.deletedAt = none := by
  unfold activeOwnedTask at h
  split at h
  · next t ht =>
    split at h
    · next hu =>
      cases h
      exact ⟨ht, hu⟩
    · cases h
  · cases h

theorem create_effect {encode : WireEncoder} {userId fileId taskId jobId : Uuid}
    {profile : Option TargetProfile} {solveMode : Option String} {now : DateTime}
    {db db' : Database}
    (h : create encode userId fileId profile solveMode taskId jobId now db = .ok db') :
    RequestEffect db db' := by
  unfold create at h
  split at h
  · cases h
  · cases h
  · next mode file _ hfile =>
    split at h
    · next key hparsed hkey =>
      split at h
      · next p =>
        split at h
        · obtain ⟨hf, hu⟩ := ownedFile_ok hfile
          obtain ⟨payload, ht, hj, hjobs, htasks, hfiles, hart⟩ := saveAndEnqueue_ok h
          have hid : file.id = fileId := file?_id hf
          refine .build _ payload jobId now file key ⟨_, _, _, _, _, _, rfl⟩ ?_ hu hkey
            (Or.inl ⟨hparsed, ?_, rfl⟩) ht hj hjobs htasks hfiles hart
          · show db.file? file.id = some file
            rw [hid]
            exact hf
          · simp [newTask, TargetProfile.snapshot, Json.get?, Json.eqString, List.find?]
        · cases h
      · cases h
    · cases h

theorem retry_effect {encode : WireEncoder} {userId sourceId taskId jobId : Uuid}
    {now : DateTime} {db db' : Database}
    (h : retry encode userId sourceId taskId jobId now db = .ok db') : RequestEffect db db' := by
  unfold retry at h
  split at h
  · cases h
  · next source hsource =>
    split at h
    · split at h
      · cases h
      · next file hfile =>
        split at h
        · cases h
        · next key hkey =>
          obtain ⟨hf, hu⟩ := ownedFile_ok hfile
          obtain ⟨ht, -, -⟩ := activeOwnedTask_ok hsource
          obtain ⟨payload, htask, hj, hjobs, htasks, hfiles, hart⟩ := saveAndEnqueue_ok h
          refine .build
            (newTask taskId userId source.requirementFileId source.targetProfileId
              (some source.id) source.solveMode source.targetSnapshot now)
            payload jobId now file key ⟨_, _, _, _, _, _, rfl⟩ hf hu hkey
            (Or.inr ⟨source, ?_, rfl, rfl, rfl⟩) htask hj hjobs htasks hfiles hart
          rw [task?_id ht]
          exact ht
    · cases h

theorem delete_effect {userId taskId : Uuid} {now : DateTime} {db db' : Database}
    (h : delete userId taskId now db = .ok db') : RequestEffect db db' := by
  unfold delete at h
  split at h
  · next task ht =>
    split at h
    · cases h
      refine .delete task now ?_ rfl
      rw [task?_id ht]
      exact ht
    · cases h
  · cases h

theorem upload_effect {encode : WireEncoder} {userId fileId jobId : Uuid} {originalName : String}
    {sizeBytes : Nat} {sha256 : String} {now : DateTime} {db db' : Database}
    (h : upload encode userId fileId jobId originalName sizeBytes sha256 now db = .ok db') :
    RequestEffect db db' := by
  unfold upload at h
  split at h
  · cases h
  · next files hfiles =>
    unfold enqueue at h
    split at h
    · cases h
    · next wire _ =>
      split at h
      · cases h
      · next jobs hjobs =>
        cases h
        exact .parse _ wire jobId now rfl rfl (Table.insert?_eq_some hfiles).1
          (Table.insert?_eq_some hjobs).1 (fun k => Table.find?_of_insert? hjobs k)
          (fun _ => rfl) (fun k => Table.find?_of_insert? hfiles k) rfl

theorem ApiRequest.run_effect {encode : WireEncoder} {r : ApiRequest} {db db' : Database}
    (h : r.run encode db = .ok db') : RequestEffect db db' := by
  cases r with
  | create => exact create_effect h
  | retry => exact retry_effect h
  | delete => exact delete_effect h
  | upload => exact upload_effect h

/-! ## Operations under a lease -/

section Effects

variable {repo : JobRepository} {lease : JobLease} {now : DateTime} {db : Database}
  {op : LeaseOperation} {e : Effect}

/-- An operation never starts a run: a job that runs afterwards ran before, with one execution. -/
theorem LeaseEffect.job_running (h : LeaseEffect repo lease now db op e) {j : BuildJob}
    (hr : (e.job j).status = .running) :
    j.status = .running ∧ (e.job j).executionId = j.executionId := by
  cases h with
  | keep | renew | claimParse | claimBuild | advance => exact ⟨hr, rfl⟩
  | complete | requeue | fail | completeParse | claimBuildMalformed | cancel | publish => cases hr

theorem BuildTask.terminalizedBy_execution (jobType : JobType) (code message : String)
    (now : DateTime) (t : BuildTask) :
    (t.terminalizedBy jobType code message now).executionId = t.executionId := by
  unfold BuildTask.terminalizedBy
  split <;> rfl

/-- An operation sets the execution of a task to its own, clears it, or leaves it alone. -/
theorem LeaseEffect.task_execution (h : LeaseEffect repo lease now db op e) (t : BuildTask) :
    (e.task t).executionId = t.executionId ∨ (e.task t).executionId = none ∨
      (e.task t).executionId = some lease.executionId := by
  cases h with
  | keep | renew | complete | claimParse | completeParse | cancel | advance | publish =>
      exact Or.inl rfl
  | claimBuild => exact Or.inr (Or.inr rfl)
  | fail op code error message =>
      exact Or.inl (BuildTask.terminalizedBy_execution _ _ _ _ _)
  | claimBuildMalformed ht hc code error message =>
      exact Or.inr (Or.inr (BuildTask.terminalizedBy_execution _ _ _ _ _))
  | requeue =>
      show (BuildTask.resetBy lease t).executionId = t.executionId ∨
        (BuildTask.resetBy lease t).executionId = none ∨ _
      unfold BuildTask.resetBy
      split
      · exact Or.inr (Or.inl rfl)
      · exact Or.inl rfl

/-- An inserted artifact belongs to the subject, which exists. -/
theorem LeaseEffect.artifact_task (h : LeaseEffect repo lease now db op e) {a : ArtifactRow}
    (ha : a ∈ e.artifacts) :
    a.buildTaskId = lease.subjectId ∧ ∃ t, db.task? lease.subjectId = some t := by
  cases h with
  | keep | renew | complete | claimParse | completeParse | cancel | advance | claimBuild
  | requeue | fail | claimBuildMalformed => cases ha
  | publish ht =>
      have ha' : a = _ := List.mem_singleton.1 ha
      rw [ha']
      exact ⟨rfl, _, ht⟩

end Effects

section Lookups

variable {lease : JobLease} {db db' : Database} {row : BuildJob} {e : Effect}

/-- Job rows keep their identity through an effect. -/
theorem Applies.job_forward (h : Applies lease db db' row e) {k : Uuid} {j : BuildJob}
    (hj : db.job? k = some j) : ∃ j', db'.job? k = some j' ∧ j.Same j' := by
  rw [h.job]
  split
  · next hk =>
    subst hk
    rw [h.found] at hj
    cases hj
    exact ⟨_, rfl, e.job_same _⟩
  · exact ⟨j, hj, BuildJob.Same.refl j⟩

/-- A job row after an effect: the row of the lease, or an untouched row. -/
theorem Applies.job_cases (h : Applies lease db db' row e) {k : Uuid} {j' : BuildJob}
    (hj : db'.job? k = some j') :
    (k ≠ lease.id ∧ db.job? k = some j') ∨ (k = lease.id ∧ j' = e.job row) := by
  rw [h.job] at hj
  split at hj
  · next hk =>
    cases hj
    exact Or.inr ⟨hk, rfl⟩
  · next hk => exact Or.inl ⟨hk, hj⟩

theorem Applies.job_backward (h : Applies lease db db' row e) {k : Uuid} {j' : BuildJob}
    (hj : db'.job? k = some j') : ∃ j, db.job? k = some j ∧ j.Same j' := by
  rcases h.job_cases hj with ⟨-, hj⟩ | ⟨rfl, rfl⟩
  · exact ⟨j', hj, BuildJob.Same.refl j'⟩
  · exact ⟨row, h.found, e.job_same row⟩

theorem Applies.task_forward (h : Applies lease db db' row e) {k : Uuid} {t : BuildTask}
    (ht : db.task? k = some t) :
    db'.task? k = some (if k = lease.subjectId then e.task t else t) := by
  rw [h.task, ht]
  split <;> rfl

theorem Applies.task_backward (h : Applies lease db db' row e) {k : Uuid} {t' : BuildTask}
    (ht : db'.task? k = some t') :
    ∃ t, db.task? k = some t ∧ t' = if k = lease.subjectId then e.task t else t := by
  rw [h.task] at ht
  by_cases hk : k = lease.subjectId
  · rw [if_pos hk] at ht
    obtain ⟨t, ht₀, rfl⟩ := Option.map_eq_some_iff.1 ht
    exact ⟨t, ht₀, (if_pos hk).symm⟩
  · rw [if_neg hk] at ht
    exact ⟨t', ht, (if_neg hk).symm⟩

theorem Applies.file_forward (h : Applies lease db db' row e) {k : Uuid} {f : RequirementFile}
    (hf : db.file? k = some f) :
    db'.file? k = some (if k = lease.subjectId then e.file f else f) := by
  rw [h.file, hf]
  split <;> rfl

theorem Applies.mem_artifacts (h : Applies lease db db' row e) {a : ArtifactRow} :
    a ∈ db'.artifacts ↔ a ∈ db.artifacts ∨ a ∈ e.artifacts := by
  rw [Table.mem_def, h.artifacts, List.mem_append]
  exact Iff.rfl

end Lookups

/-! ## Cancellation -/

/-- The results of the locked part of `cancel` on the task. -/
inductive CancelCase (task : BuildTask) (cancelledReadyJob : Nat) (now : DateTime) :
    BuildTask → Prop
  | terminal (h : task.status.isTerminal = true) : CancelCase task cancelledReadyJob now task
  | cancelled (hq : task.status = .queued) (hn : cancelledReadyJob = 1) :
      CancelCase task cancelledReadyJob now
        { task with
          cancelRequested := true
          versionNo := task.versionNo + 1
          status := .cancelled
          finishedAt := some now }
  | requested (h : task.status.isTerminal = false)
      (hn : ¬ (task.status = .queued ∧ cancelledReadyJob = 1)) (versionNo : Nat) :
      CancelCase task cancelledReadyJob now
        { task with cancelRequested := true, versionNo := versionNo }

theorem cancelTask_ok {task task' : BuildTask} {n : Nat} {now : DateTime}
    (h : cancelTask task n now = .ok task') : CancelCase task n now task' := by
  unfold cancelTask at h
  split at h
  · next ht =>
    cases h
    exact .terminal ht
  · next ht =>
    split at h
    · next hq =>
      unfold transitionTo at h
      rw [if_pos (by rw [hq.1]; rfl)] at h
      cases h
      exact .cancelled hq.1 hq.2
    · next hq =>
      have hterm : task.status.isTerminal = false := Bool.eq_false_iff.2 ht
      split at h
      · next hc =>
        cases h
        have heq : task = { task with cancelRequested := true, versionNo := task.versionNo } := by
          cases task
          cases hc
          rfl
        have hcase : CancelCase task n now _ := .requested hterm hq task.versionNo
        rw [← heq] at hcase
        exact hcase
      · cases h
        exact .requested hterm hq _

theorem job?_applyCancelledJobs (matched : List Uuid) (now : DateTime) (db : Database)
    (k : Uuid) : (applyCancelledJobs matched now db).job? k =
      (db.job? k).map fun j => if k ∈ matched then cancelledByApi now j else j := by
  have h := Table.find?_updateWhere db.buildJobs (fun j => decide (j.id ∈ matched))
    (cancelledByApi now) (fun _ => rfl) k
  refine h.trans ?_
  show Option.map _ (db.job? k) = _
  cases hj : db.job? k with
  | none => rfl
  | some j =>
      have hjk := job?_id hj
      simp only [Option.map_some, hjk, decide_eq_true_eq]

/-- The writes of a finished `cancel`, as lookups. -/
structure FinishedCancel (c : CancelTransaction) (matched : List Uuid) (db db' : Database)
    (task task' : BuildTask) : Prop where
  found : db.task? c.taskId = some task
  active : task.deletedAt = none
  result : CancelCase task matched.length c.now task'
  job : ∀ k, db'.job? k =
    (db.job? k).map fun j => if k ∈ matched then cancelledByApi c.now j else j
  task : ∀ k, db'.task? k = if k = c.taskId then some task' else db.task? k
  file : ∀ k, db'.file? k = db.file? k
  artifacts : db'.artifacts = db.artifacts

theorem CancelCase.same {task task' : BuildTask} {n : Nat} {now : DateTime}
    (h : CancelCase task n now task') :
    task'.id = task.id ∧ task'.executionId = task.executionId ∧
      task'.deletedAt = task.deletedAt := by
  cases h <;> exact ⟨rfl, rfl, rfl⟩

theorem finishCancel_ok {c : CancelTransaction} {matched : List Uuid} {db db' : Database}
    (h : finishCancel c matched db = .ok db') :
    ∃ task task', FinishedCancel c matched db db' task task' := by
  unfold finishCancel at h
  split at h
  · cases h
  · next task htask =>
    split at h
    · cases h
    · next task' hcancel =>
      cases h
      obtain ⟨hf, -, hact⟩ := activeOwnedTask_ok htask
      have hcase := cancelTask_ok hcancel
      have hid : task'.id = c.taskId := hcase.same.1.trans (task?_id hf)
      refine ⟨task, task', hf, hact, hcase, fun k => ?_, fun k => ?_, fun _ => rfl, rfl⟩
      · rw [Database.job?_setTask]
        exact job?_applyCancelledJobs matched c.now db k
      · rw [Database.task?_setTask, hid]
        split
        · next hk =>
          subst hk
          show Option.map _ (db.task? c.taskId) = _
          rw [hf]
          rfl
        · rfl

theorem mem_matchReadyJobs {c : CancelTransaction} {db : Database} {k : Uuid}
    (h : k ∈ matchReadyJobs c db) :
    ∃ j, db.job? k = some j ∧ j.status = .ready ∧ j.jobType = .build ∧ j.subjectId = c.taskId := by
  unfold matchReadyJobs at h
  split at h
  · obtain ⟨j, hj, rfl⟩ := List.mem_map.1 h
    obtain ⟨hm, hp⟩ := List.mem_filter.1 hj
    simp only [isReadyBuildJob, Bool.and_eq_true, decide_eq_true_eq] at hp
    exact ⟨j, Table.find?_of_mem hm, hp.2, hp.1.2, hp.1.1⟩
  · cases h

theorem matchReadyJobs_nodup (c : CancelTransaction) (db : Database) :
    (matchReadyJobs c db).Nodup := by
  unfold matchReadyJobs
  split
  · exact db.buildJobs.nodup.sublist (List.filter_sublist.map _)
  · exact List.nodup_nil

/-! ## Steps -/

/-- A subject claim without the lease does not succeed. -/
theorem claimsSubject_of_not_owns {repo : JobRepository} {lease : JobLease} {now : DateTime}
    {db : Database} (h : owns db lease now = false) (op : LeaseOperation) :
    claimsSubject repo lease now op db = false := by
  cases op with
  | claimParseSubject => simp [claimsSubject, JobRepository.claimParseSubject, h]
  | claimBuildSubject => simp [claimsSubject, JobRepository.claimBuildSubject, h]
  | _ => rfl

/-- What a step does to the tables, the leases and the claimed executions. -/
inductive StepEffect (repo : JobRepository) (s s' : SystemState) : SystemAction → Prop
  | idle {a : SystemAction} (hdb : s'.db = s.db) (hleases : s'.leases = s.leases)
      (hclaimed : s'.claimed = s.claimed) : StepEffect repo s s' a
  | exhausted {workerId : String} {executionId : Uuid} {locked : Uuid → Bool} {now : DateTime}
      {row : BuildJob} (hr : Claimable s.db locked now row)
      (happ : Applies (repo.leaseOf row workerId executionId) s.db s'.db row
        ((Effect.keep.andJob fun j => j.failed exhaustedMessage now).andTerminalize row.jobType
          "JOB_ATTEMPTS_EXHAUSTED" exhaustedMessage now))
      (hleases : s'.leases = s.leases) (hclaimed : s'.claimed = s.claimed) :
      StepEffect repo s s' (.claim workerId executionId locked now)
  | leased {workerId : String} {executionId : Uuid} {locked : Uuid → Bool} {now : DateTime}
      {row : BuildJob} (hr : Claimable s.db locked now row) (ha : row.attempts < row.maxAttempts)
      (hfresh : executionId ∉ s.leases.map JobLease.executionId)
      (happ : Applies (repo.leaseOf row workerId executionId) s.db s'.db row
        (Effect.keep.andJob fun j => j.leased workerId executionId now repo.leaseSeconds))
      (hleases : s'.leases = s.leases ++ [repo.leaseOf row workerId executionId])
      (hclaimed : s'.claimed = s.claimed) :
      StepEffect repo s s' (.claim workerId executionId locked now)
  | operated {lease : JobLease} {now : DateTime} {op : LeaseOperation} {row : BuildJob}
      {e : Effect} (hl : lease ∈ s.leases) (hrow : Owned s.db lease now row)
      (he : LeaseEffect repo lease now s.db op e) (happ : Applies lease s.db s'.db row e)
      (hleases : s'.leases = s.leases)
      (hclaimed : s'.claimed =
        if claimsSubject repo lease now op s.db then lease.executionId :: s.claimed
        else s.claimed) : StepEffect repo s s' (.operate lease now op)
  | requested {r : ApiRequest} (h : RequestEffect s.db s'.db) (hleases : s'.leases = s.leases)
      (hclaimed : s'.claimed = s.claimed) : StepEffect repo s s' (.request r)
  | cancelled {c : CancelTransaction} {matched : List Uuid} {task task' : BuildTask}
      (hc : c ∈ s.cancels) (hm : c.matched = some matched)
      (h : FinishedCancel c matched s.db s'.db task task') (hleases : s'.leases = s.leases)
      (hclaimed : s'.claimed = s.claimed) : StepEffect repo s s' (.finishCancel c)

theorem SystemStep.effect {repo : JobRepository} {encode : WireEncoder} {s s' : SystemState}
    {a : SystemAction} (h : SystemStep repo encode s a s') : StepEffect repo s s' a := by
  cases h with
  | @claim workerId executionId locked now hw hfresh hlocked =>
      have hcase := claimPass_cases repo workerId executionId locked now s.db
      generalize repo.claimPass workerId executionId locked now s.db = result at hcase
      obtain ⟨pass, db'⟩ := result
      cases hcase with
      | idle => exact .idle rfl rfl rfl
      | exhausted hr ha happ => exact .exhausted hr happ rfl rfl
      | leased hr ha happ => exact .leased hr ha hfresh happ rfl rfl
  | @operate lease now op hl =>
      cases ho : owns s.db lease now with
      | false =>
          refine .idle (perform_of_not_owns repo ho op) rfl ?_
          show (if claimsSubject repo lease now op s.db then _ else _) = _
          rw [claimsSubject_of_not_owns ho]
          exact if_neg Bool.false_ne_true
      | true =>
          obtain ⟨row, hrow⟩ := owns_eq_true_iff.1 ho
          obtain ⟨e, he, happ⟩ := perform_effective repo hrow op
          exact .operated hl hrow he happ rfl rfl
  | request hr => exact .requested (ApiRequest.run_effect hr) rfl rfl
  | beginCancel | matchCancel | abandonCancel => exact .idle rfl rfl rfl
  | finishCancel hc hm hf =>
      obtain ⟨task, task', hfin⟩ := finishCancel_ok hf
      exact .cancelled hc hm hfin rfl rfl

end WheelForge.Jobs
