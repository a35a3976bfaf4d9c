import WheelForge.Jobs.BuildProtocol
import WheelForge.Jobs.Fencing

/-!
# The job system follows the build protocol

`buildView s k` is the part of the state that concerns the build job `k`: its row, the lease under
which it runs, its task and the artifacts of the task. Every step of the system leaves the view of a
job alone or is one step of `buildProtocol` on it (`buildView_step`), as long as the workers use the
operations the way the pipeline and the consumer do (`PipelineUse`). So a run of the system is, for
every job, a run of the protocol (`buildView_steps`).
-/

set_option autoImplicit false

namespace WheelForge.Jobs

open WheelForge.Relational
open WheelForge.Transition
open WheelForge.Api

/-- The operations that the pipeline and the consumer perform with a lease, by its job type, and the
statuses they pass to them. -/
def usedByPipeline (lease : JobLease) : LeaseOperation → Bool
  | .heartbeat | .retryOrFail .. | .failTerminal .. => true
  | .claimParseSubject | .completeParse .. => decide (lease.jobType = .requirementParse)
  | .claimBuildSubject | .isCancelRequested | .cancelBuild | .persistResolution ..
  | .persistPackageResults .. => decide (lease.jobType = .build)
  | .advanceBuild status .. => decide (lease.jobType = .build) && BuildStatus.isStage status
  | .publishArtifactTerminal _ _ _ status _ =>
      decide (lease.jobType = .build) && status.isPublished
  | .complete | .appendLog .. => false

/-- The condition on a step that its operation is one the pipeline or the consumer performs. -/
def PipelineUse : SystemState → SystemAction → Prop
  | _, .operate lease _ op => usedByPipeline lease op = true
  | _, _ => True

instance (s : SystemState) (a : SystemAction) : Decidable (PipelineUse s a) := by
  cases a <;> unfold PipelineUse <;> infer_instance

/-! ## The view of a build -/

/-- The lease under which a job row runs. -/
def SystemState.holder (s : SystemState) (j : BuildJob) : Option JobLease :=
  if j.status = .running then
    s.leases.find? fun l => decide (j.executionId = some l.executionId)
  else none

/-- The artifacts of a task. -/
def Database.artifactsOf (db : Database) (taskId : Uuid) : List ArtifactRow :=
  db.artifacts.rows.filter fun a => decide (a.buildTaskId = taskId)

def BuildView.ofRows (j : BuildJob) (holder : Option JobLease) (t : BuildTask)
    (artifacts : List ArtifactRow) : BuildView where
  taskId := j.subjectId
  jobStatus := j.status
  holder := holder
  taskStatus := t.status
  taskExecution := t.executionId
  cancelRequested := t.cancelRequested
  deleted := t.deletedAt.isSome
  artifacts := artifacts

/-- The view of the build job `k`; there is none when `k` is no build job. -/
def buildView (s : SystemState) (k : Uuid) : Option BuildView :=
  match s.db.job? k with
  | some j =>
      if j.jobType = .build then
        (s.db.task? j.subjectId).map fun t =>
          .ofRows j (s.holder j) t (s.db.artifactsOf j.subjectId)
      else none
  | none => none

section Views

variable {s s' : SystemState} {k : Uuid} {j : BuildJob} {t : BuildTask}

theorem buildView_eq (hj : s.db.job? k = some j) (hty : j.jobType = .build)
    (ht : s.db.task? j.subjectId = some t) :
    buildView s k = some (.ofRows j (s.holder j) t (s.db.artifactsOf j.subjectId)) := by
  unfold buildView
  rw [hj]
  dsimp only
  rw [if_pos hty, ht, Option.map_some]

theorem buildView_of_not_build (h : ∀ j, s.db.job? k = some j → j.jobType ≠ .build) :
    buildView s k = none := by
  unfold buildView
  cases hj : s.db.job? k with
  | none => rfl
  | some j => exact if_neg (h j hj)

theorem buildView_congr (hj : s'.db.job? k = s.db.job? k)
    (h : ∀ j, s.db.job? k = some j → j.jobType = .build →
      s'.db.task? j.subjectId = s.db.task? j.subjectId ∧ s'.holder j = s.holder j ∧
        s'.db.artifactsOf j.subjectId = s.db.artifactsOf j.subjectId) :
    buildView s' k = buildView s k := by
  unfold buildView
  rw [hj]
  cases hk : s.db.job? k with
  | none => rfl
  | some j =>
      dsimp only
      by_cases hty : j.jobType = .build
      · obtain ⟨ht, hh, ha⟩ := h j hk hty
        rw [if_pos hty, if_pos hty, ht, hh, ha]
      · rw [if_neg hty, if_neg hty]

theorem holder_of_not_running (h : j.status ≠ .running) : s.holder j = none := if_neg h

theorem holder_eq_some (hs : WellFormed s) {l : JobLease} (hl : l ∈ s.leases)
    (hr : j.status = .running) (he : j.executionId = some l.executionId) :
    s.holder j = some l := by
  unfold SystemState.holder
  rw [if_pos hr]
  cases hf : s.leases.find? fun l => decide (j.executionId = some l.executionId) with
  | none =>
      have hnone := List.find?_eq_none.1 hf l hl
      rw [he] at hnone
      simp at hnone
  | some l' =>
      have hmem := List.mem_of_find?_eq_some hf
      have hsome := List.find?_some hf
      rw [decide_eq_true_eq, he, Option.some_inj] at hsome
      rw [List.inj_on_of_nodup_map hs.leases_distinct hl hmem hsome]

/-- New leases do not change the lease under which an old row runs. -/
theorem holder_append (hs : WellFormed s) {extra : List JobLease}
    (hleases : s'.leases = s.leases ++ extra) (hj : s.db.job? k = some j) :
    s'.holder j = s.holder j := by
  by_cases hr : j.status = .running
  · obtain ⟨l, hl, -, he⟩ := hs.running_lease k j hj hr
    have hold := holder_eq_some hs hl hr he
    unfold SystemState.holder at hold ⊢
    rw [if_pos hr] at hold ⊢
    rw [if_pos hr, hleases, List.find?_append, hold]
    rfl
  · rw [holder_of_not_running hr, holder_of_not_running hr]

theorem artifactsOf_congr {db db' : Database} (h : db'.artifacts = db.artifacts) (id : Uuid) :
    db'.artifactsOf id = db.artifactsOf id := by
  unfold Database.artifactsOf
  rw [h]

theorem artifactsOf_append {db db' : Database} {rows : List ArtifactRow}
    (h : db'.artifacts.rows = db.artifacts.rows ++ rows) (id : Uuid) :
    db'.artifactsOf id =
      db.artifactsOf id ++ rows.filter fun a => decide (a.buildTaskId = id) := by
  unfold Database.artifactsOf
  rw [h, List.filter_append]

end Views

/-! ## The view through an effect -/

section Effects

variable {s s' : SystemState} {target : JobLease} {row : BuildJob} {e : Effect}

/-- The effect of a parse lease leaves every build alone. -/
theorem buildView_of_parse (hs : WellFormed s) (happ : Applies target s.db s'.db row e)
    {extra : List JobLease} (hleases : s'.leases = s.leases ++ extra)
    (hty : row.jobType = .requirementParse) (htask : ∀ t, e.task t = t) (hart : e.artifacts = [])
    (k : Uuid) : buildView s' k = buildView s k := by
  by_cases hk : k = target.id
  · subst hk
    rw [buildView_of_not_build, buildView_of_not_build]
    · intro j hj
      rw [happ.found] at hj
      cases hj
      rw [hty]
      nofun
    · intro j hj
      rw [happ.job?_self] at hj
      cases hj
      rw [(e.job_same row).jobType, hty]
      nofun
  · refine buildView_congr (by rw [happ.job, if_neg hk]) fun j hj _ => ⟨?_, ?_, ?_⟩
    · rw [happ.task]
      exact (Applies.map_lookup_self htask _).symm
    · exact holder_append hs hleases hj
    · rw [artifactsOf_append happ.artifacts, hart]
      exact List.append_nil _

/-- The effect of a build lease leaves the other builds alone. -/
theorem buildView_of_ne (hs : WellFormed s) (happ : Applies target s.db s'.db row e)
    {extra : List JobLease} (hleases : s'.leases = s.leases ++ extra)
    (hty : row.jobType = .build) (hsub : row.subjectId = target.subjectId)
    (hart : ∀ a ∈ e.artifacts, a.buildTaskId = target.subjectId) {k : Uuid} (hk : k ≠ target.id) :
    buildView s' k = buildView s k := by
  refine buildView_congr (by rw [happ.job, if_neg hk]) fun j hj hjty => ?_
  have hne : j.subjectId ≠ target.subjectId := fun heq =>
    hk (hs.subject_unique k target.id j row hj happ.found (hjty.trans hty.symm)
      (heq.trans hsub.symm))
  refine ⟨by rw [happ.task, if_neg hne], holder_append hs hleases hj, ?_⟩
  rw [artifactsOf_append happ.artifacts, List.filter_eq_nil_iff.2, List.append_nil]
  intro a ha
  rw [hart a ha, decide_eq_true_eq]
  exact hne.symm

/-- The effect of a build lease on its own build. -/
theorem buildView_of_self (happ : Applies target s.db s'.db row e) (hty : row.jobType = .build)
    (hsub : row.subjectId = target.subjectId)
    (hart : ∀ a ∈ e.artifacts, a.buildTaskId = target.subjectId) {t : BuildTask}
    (ht : s.db.task? target.subjectId = some t) :
    buildView s' target.id =
      some (.ofRows (e.job row) (s'.holder (e.job row)) (e.task t)
        (s.db.artifactsOf target.subjectId ++ e.artifacts)) := by
  have hsub' : (e.job row).subjectId = target.subjectId := (e.job_same row).subjectId.trans hsub
  rw [buildView_eq happ.job?_self ((e.job_same row).jobType.trans hty)
    (by rw [hsub']; exact (happ.task_forward ht).trans (by rw [if_pos rfl]))]
  rw [hsub', artifactsOf_append happ.artifacts, List.filter_eq_self.2]
  intro a ha
  exact decide_eq_true (hart a ha)

/-- A used operation of a build lease writes to no file. -/
theorem LeaseEffect.of_build {repo : JobRepository} {lease : JobLease} {now : DateTime}
    {db : Database} {op : LeaseOperation} {e : Effect} (h : LeaseEffect repo lease now db op e)
    (hu : usedByPipeline lease op = true) (hty : lease.jobType = .build) (f : RequirementFile) :
    e.file f = f := by
  have hne : lease.jobType ≠ .requirementParse := by rw [hty]; nofun
  cases h with
  | keep | renew | complete | claimBuild | cancel | advance | publish => rfl
  | claimParse | completeParse => exact absurd (of_decide_eq_true hu) hne
  | fail | claimBuildMalformed =>
      show RequirementFile.terminalizedBy lease.jobType _ f = f
      unfold RequirementFile.terminalizedBy
      exact if_neg fun h => hne h.1
  | requeue =>
      show RequirementFile.resetBy lease f = f
      unfold RequirementFile.resetBy
      exact if_neg fun h => hne h.1

/-- A used operation of a parse lease writes to no task and publishes nothing. -/
theorem LeaseEffect.of_parse {repo : JobRepository} {lease : JobLease} {now : DateTime}
    {db : Database} {op : LeaseOperation} (h : LeaseEffect repo lease now db op e)
    (hu : usedByPipeline lease op = true) (hty : lease.jobType = .requirementParse) :
    (∀ t, e.task t = t) ∧ e.artifacts = [] := by
  have hne : lease.jobType ≠ .build := by rw [hty]; nofun
  cases h with
  | keep | renew | complete | claimParse | completeParse => exact ⟨fun _ => rfl, rfl⟩
  | requeue =>
      refine ⟨fun t => ?_, rfl⟩
      show BuildTask.resetBy lease t = t
      unfold BuildTask.resetBy
      exact if_neg fun h => hne h.1
  | fail op code error message =>
      refine ⟨fun t => ?_, rfl⟩
      show BuildTask.terminalizedBy lease.jobType code message now t = t
      unfold BuildTask.terminalizedBy
      exact if_neg fun h => hne h.1
  | claimBuild | claimBuildMalformed | cancel => exact absurd (of_decide_eq_true hu) hne
  | advance | publish =>
      simp only [usedByPipeline, Bool.and_eq_true, decide_eq_true_eq] at hu
      exact absurd hu.1 hne

end Effects

/-! ## One step -/

/-- What a step of the system did when it leased or requeued the build `k`. -/
def BuildCause (s : SystemState) (a : SystemAction) (k : Uuid) : BuildAction → Prop
  | .lease _ => ∃ workerId executionId locked now row,
      a = .claim workerId executionId locked now ∧ Claimable s.db locked now row ∧ row.id = k ∧
        row.attempts < row.maxAttempts
  | .requeue l => l ∈ s.leases ∧ l.id = k ∧ l.jobType = .build ∧ ∃ now error delay,
      a = .operate l now (.retryOrFail error true delay) ∧ owns s.db l now = true ∧
        l.attempts < l.maxAttempts
  | _ => True

/-- The view of `k` is left alone, or takes one step of the protocol that `a` causes. -/
def FollowsBuild (s : SystemState) (a : SystemAction) (s' : SystemState) (k : Uuid) : Prop :=
  buildView s' k = buildView s k ∨
    ∃ b, BuildCause s a k b ∧ buildProtocol.step (buildView s k) b (buildView s' k)

/-- A step of an existing build. -/
theorem FollowsBuild.of_step {s s' : SystemState} {a : SystemAction} {k : Uuid} {v w : BuildView}
    (hv : buildView s k = some v) (hw : buildView s' k = some w) (b : BuildAction)
    (hcause : BuildCause s a k b) (h : BuildStep v b w) : FollowsBuild s a s' k :=
  Or.inr ⟨b, hcause, Or.inr ⟨v, w, hv, hw, h⟩⟩

theorem initialClaim_iff {lease : JobLease} {t : BuildTask} :
    JobRepository.initialClaim lease t = true ↔
      lease.reclaimed = false ∧ t.status = .queued ∧ t.executionId = none := by
  unfold JobRepository.initialClaim
  rw [Bool.and_eq_true, Bool.and_eq_true, Bool.not_eq_true', decide_eq_true_eq, decide_eq_true_eq,
    and_assoc]

theorem takeoverClaim_iff {lease : JobLease} {t : BuildTask} :
    JobRepository.takeoverClaim lease t = true ↔
      lease.reclaimed = true ∧ t.status.isNonterminal = true ∧
        lease.previousExecutionId.isSome = true ∧
        t.executionId = lease.previousExecutionId := by
  unfold JobRepository.takeoverClaim
  rw [Bool.and_eq_true, Bool.and_eq_true, Bool.and_eq_true, decide_eq_true_eq]
  constructor
  · rintro ⟨⟨⟨h₁, h₂⟩, h₃⟩, h₄⟩
    exact ⟨h₁, h₃, h₂, h₄⟩
  · rintro ⟨h₁, h₃, h₂, h₄⟩
    exact ⟨⟨⟨h₁, h₂⟩, h₃⟩, h₄⟩

/-- The guard of a subject claim, on the view. -/
theorem claimGuard_of_claim {lease : JobLease} {t : BuildTask} {j : BuildJob}
    {holder : Option JobLease} {rows : List ArtifactRow}
    (h : JobRepository.initialClaim lease t = true ∨ JobRepository.takeoverClaim lease t = true) :
    (BuildView.ofRows j holder t rows).ClaimGuard lease := by
  rcases h with h | h
  · exact Or.inl (initialClaim_iff.1 h)
  · exact Or.inr (takeoverClaim_iff.1 h)

/-- A view after `_terminalize_subject` of a build. -/
theorem ofRows_terminalized (j j' : BuildJob) (hsub : j'.subjectId = j.subjectId)
    (holder holder' : Option JobLease) (t : BuildTask) (rows : List ArtifactRow)
    (code message : String) (now : DateTime) :
    BuildView.ofRows j' holder' (t.terminalizedBy .build code message now) rows =
      { BuildView.ofRows j holder t rows with
        jobStatus := j'.status
        holder := holder'
        taskStatus := (BuildView.ofRows j holder t rows).failedStatus } := by
  unfold BuildTask.terminalizedBy BuildView.failedStatus
  cases ht : t.status.isTerminal <;> simp [BuildView.ofRows, BuildTask.terminalized, ht, hsub]

section Steps

variable {repo : JobRepository} {encode : WireEncoder} {s s' : SystemState} {a : SystemAction}

theorem buildView_claim (hs : WellFormed s) (hs' : WellFormed s') {workerId : String}
    {executionId : Uuid} {locked : Uuid → Bool} {now : DateTime}
    (ha : a = .claim workerId executionId locked now)
    (hfresh : executionId ∉ s.leases.map JobLease.executionId) {pass : ClaimPass}
    (h : ClaimCase repo workerId executionId locked now s.db pass s'.db)
    (hleases : s'.leases = addLease s.leases pass) (k : Uuid) : FollowsBuild s a s' k := by
  generalize hdb : s'.db = db' at h
  cases h with
  | idle =>
      refine Or.inl (buildView_congr (by rw [hdb]) fun j hj _ => ⟨by rw [hdb], ?_, ?_⟩)
      · exact holder_append hs (hleases.trans (List.append_nil _).symm) hj
      · exact artifactsOf_congr (by rw [hdb]) _
  | @exhausted row _ hr hlt happ =>
      rw [← hdb] at happ
      have hsame : s'.leases = s.leases ++ [] := hleases.trans (List.append_nil _).symm
      cases hty : row.jobType with
      | requirementParse =>
          refine Or.inl (buildView_of_parse hs happ hsame hty (fun t => ?_) rfl k)
          show BuildTask.terminalizedBy row.jobType _ _ _ t = t
          unfold BuildTask.terminalizedBy
          exact if_neg fun h => by rw [hty] at h; cases h.1
      | build =>
          have hart : ∀ a ∈ ([] : List ArtifactRow), a.buildTaskId = row.subjectId :=
            fun a ha => absurd ha List.not_mem_nil
          by_cases hk : k = row.id
          · subst hk
            obtain ⟨t, ht⟩ := hs.build_subject _ row hr.found hty
            have hw := buildView_of_self happ hty rfl hart ht
            refine .of_step (buildView_eq hr.found hty ht) hw .exhaust trivial ?_
            have hstep : BuildStep
                (.ofRows row (s.holder row) t (s.db.artifactsOf row.subjectId)) .exhaust _ :=
              .exhaust (hr.due.imp And.left And.left)
            convert hstep using 1
            show BuildView.ofRows _ none (BuildTask.terminalizedBy row.jobType _ _ _ t)
              (s.db.artifactsOf row.subjectId ++ []) = _
            rw [hty, List.append_nil]
            exact ofRows_terminalized row (row.failed exhaustedMessage now) rfl _ _ _ _ _ _ _
          · exact Or.inl (buildView_of_ne hs happ hsame hty rfl hart hk)
  | @leased row _ hr hlt happ =>
      rw [← hdb] at happ
      cases hty : row.jobType with
      | requirementParse =>
          exact Or.inl (buildView_of_parse hs happ hleases hty (fun t => rfl) rfl k)
      | build =>
          have hart : ∀ a ∈ ([] : List ArtifactRow), a.buildTaskId = row.subjectId :=
            fun a ha => absurd ha List.not_mem_nil
          by_cases hk : k = row.id
          · subst hk
            obtain ⟨t, ht⟩ := hs.build_subject _ row hr.found hty
            have hw := buildView_of_self happ hty rfl hart ht
            refine .of_step (buildView_eq hr.found hty ht) hw
              (.lease (repo.leaseOf row workerId executionId))
              ⟨workerId, executionId, locked, now, row, ha, hr, rfl, hlt⟩ ?_
            have hguard : (row.status = .ready ∧
                (repo.leaseOf row workerId executionId).reclaimed = false) ∨
                (row.status = .running ∧
                  (repo.leaseOf row workerId executionId).reclaimed = true ∧
                  (repo.leaseOf row workerId executionId).previousExecutionId =
                    (s.holder row).map JobLease.executionId) := by
              rcases hr.due with ⟨hst, -⟩ | ⟨hst, -⟩
              · exact Or.inl ⟨hst, decide_eq_false (by rw [hst]; nofun)⟩
              · obtain ⟨l, hl, -, he⟩ := hs.running_lease _ row hr.found hst
                refine Or.inr ⟨hst, decide_eq_true hst, ?_⟩
                show (if row.status = .running then row.executionId else none) =
                  (s.holder row).map JobLease.executionId
                rw [if_pos hst, holder_eq_some hs hl hst he, he]
                rfl
            have hstep := BuildStep.lease
              (v := .ofRows row (s.holder row) t (s.db.artifactsOf row.subjectId)) hguard
              fun he => hfresh (hs.task_execution _ t _ ht he)
            convert hstep using 1
            have hmem : repo.leaseOf row workerId executionId ∈ s'.leases := by
              rw [hleases]
              exact List.mem_append_right _ (List.mem_singleton_self _)
            have hnew : s'.holder (row.leased workerId executionId now repo.leaseSeconds) =
                some (repo.leaseOf row workerId executionId) :=
              holder_eq_some hs' hmem rfl rfl
            show BuildView.ofRows _ (s'.holder (row.leased workerId executionId now
              repo.leaseSeconds)) t (s.db.artifactsOf row.subjectId ++ []) = _
            rw [hnew, List.append_nil]
            rfl
          · exact Or.inl (buildView_of_ne hs happ hleases hty rfl hart hk)

/-- A used operation on the build of a held lease: the effect on the view, case by case. -/
theorem buildView_effect {lease : JobLease} {now : DateTime} {op : LeaseOperation} {e : Effect}
    {row : BuildJob} {t : BuildTask} {rows : List ArtifactRow} {v w : BuildView}
    (hl : lease ∈ s.leases) (hrow : Owned s.db lease now row) (hty : lease.jobType = .build)
    (ht : s.db.task? lease.subjectId = some t) (hu : usedByPipeline lease op = true)
    (he : LeaseEffect repo lease now s.db op e)
    (hv : v = .ofRows row (some lease) t rows)
    (hw : w = .ofRows (e.job row)
      (if (e.job row).status = .running then some lease else none) (e.task t)
      (rows ++ e.artifacts)) :
    w = v ∨ ∃ b, BuildCause s (.operate lease now op) lease.id b ∧ BuildStep v b w := by
  have hr : v.jobStatus = .running := by rw [hv]; exact hrow.running
  have hh : v.holder = some lease := by rw [hv]; rfl
  have hparse : lease.jobType ≠ .requirementParse := by rw [hty]; nofun
  have hrun : ∀ j : BuildJob, j.status = .running →
      (if j.status = .running then some lease else none) = some lease := fun _ h => if_pos h
  cases he with
  | keep =>
      refine Or.inl ?_
      rw [hv, hw]
      show BuildView.ofRows row (if row.status = .running then _ else _) t (rows ++ []) = _
      rw [List.append_nil, hrun row hrow.running]
  | renew =>
      refine Or.inl ?_
      rw [hv, hw]
      show BuildView.ofRows (row.renewed now repo.leaseSeconds)
        (if row.status = .running then _ else _) t (rows ++ []) = _
      rw [List.append_nil, hrun row hrow.running]
      rfl
  | complete => cases hu
  | claimParse | completeParse => exact absurd (of_decide_eq_true hu) hparse
  | @requeue error delay hlt =>
      refine Or.inr ⟨.requeue lease,
        ⟨hl, rfl, hty, now, error, delay, rfl, owns_eq_true_iff.2 ⟨row, hrow⟩, hlt⟩, ?_⟩
      convert BuildStep.requeue hr hh using 1
      rw [hv, hw]
      show BuildView.ofRows (row.requeued (repo.sanitizeText error 2000) now delay) none
        (BuildTask.resetBy lease t) (rows ++ []) = _
      rw [List.append_nil]
      unfold BuildTask.resetBy
      by_cases hx : t.executionId = some lease.executionId
      · simp [BuildView.ofRows, BuildTask.requeued, BuildJob.requeued, hty, hx]
      · simp [BuildView.ofRows, BuildJob.requeued, hx]
  | fail op code error message =>
      refine Or.inr ⟨.fail lease, trivial, ?_⟩
      convert BuildStep.fail hr hh using 1
      rw [hv, hw]
      show BuildView.ofRows _ none (BuildTask.terminalizedBy lease.jobType code message now t)
        (rows ++ []) = _
      rw [hty, List.append_nil]
      exact ofRows_terminalized row (row.failed error now) rfl _ _ _ _ _ _ _
  | claimBuild ht' hf hb hc =>
      rw [ht] at ht'
      cases ht'
      have hd : v.deleted = false := by
        unfold JobRepository.validBinding at hb
        simp only [Bool.and_eq_true, decide_eq_true_eq] at hb
        rw [hv]
        show t.deletedAt.isSome = false
        rw [hb.1.1.1.1]
        rfl
      refine Or.inr ⟨.claim lease, trivial, ?_⟩
      convert BuildStep.claim hr hh (by rw [hv]; exact claimGuard_of_claim hc) hd using 1
      rw [hv, hw]
      show BuildView.ofRows row (if row.status = .running then _ else _)
        (t.claimed lease.executionId now) (rows ++ []) = _
      rw [List.append_nil, hrun row hrow.running]
      rfl
  | claimBuildMalformed ht' hc code error message =>
      rw [ht] at ht'
      cases ht'
      refine Or.inr ⟨.refuseClaim lease, trivial, ?_⟩
      convert BuildStep.refuseClaim hr hh (by rw [hv]; exact claimGuard_of_claim hc) using 1
      rw [hv, hw]
      show BuildView.ofRows _ none
        (BuildTask.terminalizedBy lease.jobType code message now
          (t.claimed lease.executionId now)) (rows ++ []) = _
      rw [hty, List.append_nil]
      rfl
  | cancel ht' hx hc =>
      rw [ht] at ht'
      cases ht'
      refine Or.inr ⟨.honourCancel lease, trivial, ?_⟩
      convert BuildStep.honourCancel hr hh (by rw [hv]; exact hx) (by rw [hv]; exact hc) using 1
      rw [hv, hw]
      show BuildView.ofRows _ none (t.cancelled now) (rows ++ []) = _
      rw [List.append_nil]
      rfl
  | @advance status progress stage message rowId t' ht' hx hterm =>
      rw [ht] at ht'
      cases ht'
      simp only [usedByPipeline, Bool.and_eq_true, decide_eq_true_eq] at hu
      refine Or.inr ⟨.advance lease status, trivial, ?_⟩
      convert BuildStep.advance hr hh (by rw [hv]; exact hx) (by rw [hv]; exact hterm) hu.2 using 1
      rw [hv, hw]
      show BuildView.ofRows (row.renewed now repo.leaseSeconds)
        (if row.status = .running then _ else _) (t.advanced status progress stage)
        (rows ++ []) = _
      rw [List.append_nil, hrun row hrow.running]
      rfl
  | @publish artifactId published filename status expiresAt t' ht' hx hc =>
      rw [ht] at ht'
      cases ht'
      simp only [usedByPipeline, Bool.and_eq_true, decide_eq_true_eq] at hu
      refine Or.inr ⟨.publish lease status, trivial, ?_⟩
      convert BuildStep.publish _ hr hh (by rw [hv]; exact hx) (by rw [hv]; exact hc) hu.2 using 1
      rw [hv, hw]
      rfl

theorem buildView_operate (hs : WellFormed s) (hs' : WellFormed s') {lease : JobLease}
    {now : DateTime} {op : LeaseOperation} (hl : lease ∈ s.leases)
    (hu : usedByPipeline lease op = true) (hdb : s'.db = perform repo lease now op s.db)
    (hleases : s'.leases = s.leases) (k : Uuid) :
    FollowsBuild s (.operate lease now op) s' k := by
  have hsame : s'.leases = s.leases ++ [] := hleases.trans (List.append_nil _).symm
  cases ho : owns s.db lease now with
  | false =>
      rw [perform_of_not_owns repo ho] at hdb
      refine Or.inl (buildView_congr (by rw [hdb]) fun j hj _ => ⟨by rw [hdb], ?_, ?_⟩)
      · exact holder_append hs hsame hj
      · exact artifactsOf_congr (by rw [hdb]) _
  | true =>
      obtain ⟨row, hrow⟩ := owns_eq_true_iff.1 ho
      obtain ⟨e, he, happ⟩ := perform_effective repo hrow op
      rw [← hdb] at happ
      obtain ⟨j, hj, hjty, hjsub, -⟩ := hs.lease_job lease hl
      have hjrow := hj.symm.trans hrow.found
      cases hjrow
      cases hty : lease.jobType with
      | requirementParse =>
          obtain ⟨htask, hart⟩ := he.of_parse hu hty
          exact Or.inl (buildView_of_parse hs happ hsame (hjty.trans hty) htask hart k)
      | build =>
          have hart : ∀ a ∈ e.artifacts, a.buildTaskId = lease.subjectId := fun a ha =>
            (he.artifact_task ha).1
          by_cases hk : k = lease.id
          · subst hk
            obtain ⟨t, ht⟩ := hs.build_subject _ row hj (hjty.trans hty)
            have hv := buildView_eq hj (hjty.trans hty) ht
            rw [holder_eq_some hs hl hrow.running hrow.execution, hjsub] at hv
            have hw := buildView_of_self happ (hjty.trans hty) hjsub hart (by rw [← hjsub]; exact ht)
            have hholder : s'.holder (e.job row) =
                if (e.job row).status = .running then some lease else none := by
              split
              · next hr =>
                exact holder_eq_some hs' (by rw [hleases]; exact hl) hr
                  ((he.job_running hr).2.trans hrow.execution)
              · next hr => exact holder_of_not_running hr
            rw [hholder] at hw
            rcases buildView_effect hl hrow hty (by rw [← hjsub]; exact ht) hu he rfl rfl with
              heq | ⟨b, hcause, hstep⟩
            · exact Or.inl (hw.trans (by rw [heq, hv]))
            · exact .of_step hv hw b hcause hstep
          · exact Or.inl (buildView_of_ne hs happ hsame (hjty.trans hty) hjsub hart hk)

theorem buildView_request (hs : WellFormed s) (h : RequestEffect s.db s'.db)
    (hleases : s'.leases = s.leases) (k : Uuid) : FollowsBuild s a s' k := by
  have hsame : s'.leases = s.leases ++ [] := hleases.trans (List.append_nil _).symm
  cases h with
  | build task payload jobId now file key hnew hfile howner hkey hsource htask hjob jobs tasks
      files artifacts =>
      by_cases hk : k = jobId
      · subst hk
        refine Or.inr ⟨.enqueue task.id, trivial, Or.inl ⟨task.id, ?_, rfl, ?_⟩⟩
        · exact buildView_of_not_build fun j hj => by rw [hjob] at hj; cases hj
        · have hj' := (jobs k).trans (if_pos rfl)
          rw [buildView_eq hj' rfl ((tasks task.id).trans (if_pos rfl))]
          have hrows : s'.db.artifactsOf task.id = [] := by
            rw [artifactsOf_congr artifacts]
            refine List.filter_eq_nil_iff.2 fun a ha => ?_
            rw [decide_eq_true_eq]
            intro heq
            obtain ⟨t, ht⟩ := hs.artifact_task a ha
            rw [heq, htask] at ht
            cases ht
          show some (BuildView.ofRows _ none task (s'.db.artifactsOf task.id)) = _
          rw [hrows]
          obtain ⟨_, _, _, _, _, _, heq⟩ := hnew
          rw [heq]
          rfl
      · refine Or.inl (buildView_congr (by rw [jobs, if_neg hk]) fun j hj hty => ?_)
        obtain ⟨t, ht⟩ := hs.build_subject k j hj hty
        have hne : j.subjectId ≠ task.id := by
          intro heq
          rw [heq, htask] at ht
          cases ht
        exact ⟨by rw [tasks, if_neg hne], holder_append hs hsame hj, artifactsOf_congr artifacts _⟩
  | parse file payload jobId now hnew hkey hfile hjob jobs tasks files artifacts =>
      by_cases hk : k = jobId
      · subst hk
        refine Or.inl ?_
        rw [buildView_of_not_build, buildView_of_not_build]
        · intro j hj
          rw [hjob] at hj
          cases hj
        · intro j hj
          rw [jobs, if_pos rfl] at hj
          cases hj
          nofun
      · exact Or.inl (buildView_congr (by rw [jobs, if_neg hk]) fun j hj _ =>
          ⟨tasks _, holder_append hs hsame hj, artifactsOf_congr artifacts _⟩)
  | delete task now htask hd =>
      have hid : (softDelete task now).id = task.id := by unfold softDelete; split <;> rfl
      have hjobs : s'.db.job? k = s.db.job? k := by rw [hd]; rfl
      have hart : s'.db.artifacts = s.db.artifacts := by rw [hd]; rfl
      have htasks : ∀ i, s'.db.task? i =
          if i = task.id then some (softDelete task now) else s.db.task? i := by
        intro i
        rw [hd, Database.task?_setTask, hid]
        split
        · next hi =>
          subst hi
          rw [htask]
          rfl
        · rfl
      by_cases hk : ∃ j, s.db.job? k = some j ∧ j.jobType = .build ∧ j.subjectId = task.id
      · obtain ⟨j, hj, hty, hsub⟩ := hk
        have hv := buildView_eq hj hty (by rw [hsub]; exact htask)
        have hw := buildView_eq (hjobs.trans hj) hty ((htasks _).trans (if_pos hsub))
        rw [holder_append hs hsame hj, artifactsOf_congr hart] at hw
        refine .of_step hv hw .delete trivial ?_
        convert BuildStep.delete using 1
        unfold softDelete BuildView.ofRows
        split
        · rfl
        · next hdel =>
          have hsome : task.deletedAt.isSome = true := Option.isSome_iff_ne_none.2 hdel
          rw [hsome]
      · refine Or.inl (buildView_congr hjobs fun j hj hty => ?_)
        have hne : j.subjectId ≠ task.id := fun heq => hk ⟨j, hj, hty, heq⟩
        exact ⟨by rw [htasks, if_neg hne], holder_append hs hsame hj, artifactsOf_congr hart _⟩

theorem buildView_finishCancel (hs : WellFormed s) {c : CancelTransaction} {matched : List Uuid}
    (hc : c ∈ s.cancels) (hm : c.matched = some matched) 
    (h : ∃ task task', FinishedCancel c matched s.db s'.db task task')
    (hleases : s'.leases = s.leases) (k : Uuid) : FollowsBuild s a s' k := by
  obtain ⟨task, task', h⟩ := h
  have hsame : s'.leases = s.leases ++ [] := hleases.trans (List.append_nil _).symm
  obtain ⟨hlen, hids⟩ := hs.cancel_matched c hc matched hm
  by_cases hk : k ∈ matched
  · -- the update matched this job, so it is ready and the only one
    obtain ⟨j, hj, hst, hty, hsub⟩ := hids k hk
    have hone : matched.length = 1 := Nat.le_antisymm hlen (List.length_pos_of_mem hk)
    have hj' : s'.db.job? k = some (cancelledByApi c.now j) := by
      rw [h.job, hj, Option.map_some, if_pos hk]
    have hv := buildView_eq hj hty (by rw [hsub]; exact h.found)
    have hw := buildView_eq hj' hty ((h.task _).trans (if_pos hsub))
    rw [holder_of_not_running (by rw [hst]; nofun)] at hv
    rw [holder_of_not_running (show JobStatus.cancelled ≠ .running by nofun),
      artifactsOf_congr h.artifacts] at hw
    refine .of_step hv hw .cancelReady trivial ?_
    convert BuildStep.cancelReady (v := .ofRows j none task _) hst using 1
    cases h.result with
    | terminal ht =>
        have hq : task.status ≠ .queued := by
          intro hq
          rw [hq] at ht
          cases ht
        simp [BuildView.ofRows, cancelledByApi, ht, hq]
    | cancelled hq => simp [BuildView.ofRows, cancelledByApi, hq, BuildStatus.isTerminal]
    | requested ht hn versionNo =>
        have hq : task.status ≠ .queued := fun hq => hn ⟨hq, hone⟩
        simp [BuildView.ofRows, cancelledByApi, ht, hq]
  · have hjobs : s'.db.job? k = s.db.job? k := by
      rw [h.job]
      cases hj : s.db.job? k with
      | none => rfl
      | some j => rw [Option.map_some, if_neg hk]
    by_cases hsubj : ∃ j, s.db.job? k = some j ∧ j.jobType = .build ∧ j.subjectId = c.taskId
    · obtain ⟨j, hj, hty, hsub⟩ := hsubj
      have hv := buildView_eq hj hty (by rw [hsub]; exact h.found)
      have hw := buildView_eq (hjobs.trans hj) hty ((h.task _).trans (if_pos hsub))
      rw [holder_append hs hsame hj, artifactsOf_congr h.artifacts] at hw
      cases h.result with
      | terminal ht => exact Or.inl (hw.trans hv.symm)
      | cancelled hq hone =>
          -- the matched job would be a second job of the task
          cases hmatch : matched with
          | nil => rw [hmatch] at hone; cases hone
          | cons k' rest =>
              obtain ⟨j', hj', -, hty', hsub'⟩ := hids k' (by rw [hmatch]; exact List.mem_cons_self)
              have heq := hs.subject_unique k k' j j' hj hj' (hty.trans hty'.symm)
                (hsub.trans hsub'.symm)
              rw [heq, hmatch] at hk
              exact absurd List.mem_cons_self hk
      | requested ht hn versionNo =>
          exact .of_step hv hw .requestCancel trivial (.requestCancel ht)
    · refine Or.inl (buildView_congr hjobs fun j hj hty => ?_)
      have hne : j.subjectId ≠ c.taskId := fun heq => hsubj ⟨j, hj, hty, heq⟩
      exact ⟨by rw [h.task, if_neg hne], holder_append hs hsame hj,
        artifactsOf_congr h.artifacts _⟩

/-- One step of the system is, for every job, at most one step of the build protocol. -/
theorem buildView_step (hs : WellFormed s) (hu : PipelineUse s a)
    (h : SystemStep repo encode s a s') (k : Uuid) : FollowsBuild s a s' k := by
  have hs' := wellFormed_step hs h
  cases h with
  | claim hw hfresh hlocked =>
      exact buildView_claim hs hs' rfl hfresh (claimPass_cases repo _ _ _ _ s.db) rfl k
  | operate hl => exact buildView_operate hs hs' hl hu rfl rfl k
  | request hr =>
      refine buildView_request hs ?_ ?_ k
      · exact ApiRequest.run_effect hr
      · rfl
  | beginCancel | matchCancel | abandonCancel => exact Or.inl rfl
  | finishCancel hc hm hf =>
      refine buildView_finishCancel hs hc hm ?_ ?_ k
      · exact finishCancel_ok hf
      · rfl

end Steps

/-! ## Runs -/

section Runs

variable {repo : JobRepository} {encode : WireEncoder} {C : SystemState → SystemAction → Prop}
  {E : Option BuildView → BuildAction → Prop} {s t : SystemState} {k : Uuid}

/-- A run of the system is a run of the protocol of each job. `E` is what the condition on the steps
of the system gives for the protocol. -/
theorem buildView_steps (hC : ∀ s a, C s a → PipelineUse s a)
    (hE : ∀ s a b, WellFormed s → C s a → BuildCause s a k b → E (buildView s k) b)
    (hs : (jobSystem repo encode).Reachable C s) (h : (jobSystem repo encode).Steps C s t) :
    buildProtocol.Steps E (buildView s k) (buildView t k) := by
  refine h.simulate (fun u => buildView u k) (fun u a u' hu hc hstep => ?_) hs
  have hwf := wellFormed_of_reachable hu
  rcases buildView_step hwf (hC u a hc) hstep k with heq | ⟨b, hcause, hb⟩
  · rw [heq]
    exact System.Steps.refl _
  · exact System.Steps.single (hE u a b hwf hc hcause) hb

/-- A reachable state shows a reachable view of each job. -/
theorem buildView_reachable (hC : ∀ s a, C s a → PipelineUse s a)
    (hE : ∀ s a b, WellFormed s → C s a → BuildCause s a k b → E (buildView s k) b)
    (hs : (jobSystem repo encode).Reachable C s) :
    buildProtocol.Reachable E (buildView s k) := by
  obtain ⟨s₀, hi, hrun⟩ := hs
  refine ⟨buildView s₀ k, ?_, buildView_steps hC hE (System.Reachable.of_init hi) hrun⟩
  cases hi
  rfl

end Runs

end WheelForge.Jobs
