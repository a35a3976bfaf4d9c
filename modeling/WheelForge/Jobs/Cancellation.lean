import WheelForge.Jobs.BuildSimulation

/-!
# Cancellation is safe

Once a `cancel` has committed its request on a task that was not terminal, the task is never
published, and when the `cancel` itself has cancelled the task, no worker leases its job or claims it
(`cancel_safety`). The protocol facts are `cancelling_step` and `cancelled_step`; this module carries
them to the tables.
-/

set_option autoImplicit false

namespace WheelForge.Jobs

open WheelForge.Transition
open WheelForge.Api

/-- The rows behind a view. -/
theorem buildView_rows {s : SystemState} {k : Uuid} {v : BuildView} (h : buildView s k = some v) :
    ∃ j t, s.db.job? k = some j ∧ j.jobType = .build ∧ s.db.task? j.subjectId = some t ∧
      v = .ofRows j (s.holder j) t (s.db.artifactsOf j.subjectId) := by
  unfold buildView at h
  split at h
  · next j hj =>
    split at h
    · next hty =>
      obtain ⟨t, ht, rfl⟩ := Option.map_eq_some_iff.1 h
      exact ⟨j, t, hj, hty, ht, rfl⟩
    · cases h
  · cases h

/-- No worker can lease the build job of a task or claim the task. -/
structure Unclaimable (repo : JobRepository) (s : SystemState) (taskId : Uuid) : Prop where
  job : ∀ workerId executionId locked now l,
    (repo.claimPass workerId executionId locked now s.db).1 = .leased l →
      l.jobType = .build → l.subjectId ≠ taskId
  subject : ∀ l ∈ s.leases, l.jobType = .build → l.subjectId = taskId →
    ∀ now, repo.claimBuildSubject l now s.db = .ok (none, s.db)

variable {repo : JobRepository} {encode : WireEncoder}

theorem unclaimable_of_cancelled {s : SystemState} (hs : WellFormed s) {k : Uuid} {j : BuildJob}
    (hj : s.db.job? k = some j) (hty : j.jobType = .build) (hst : j.status = .cancelled) :
    Unclaimable repo s j.subjectId := by
  refine ⟨fun workerId executionId locked now l hleased hlty hsub => ?_,
    fun l hl hlty hsub now => ?_⟩
  · have hcase := claimPass_cases repo workerId executionId locked now s.db
    rw [hleased] at hcase
    cases hcase with
    | @leased row _ hr ha happ =>
        have hk : row.id = k := hs.subject_unique row.id k row j hr.found hj
          (hlty.trans hty.symm) hsub
        have hrow : row = j := by
          have hfound := hr.found
          rw [hk, hj] at hfound
          cases hfound
          rfl
        rcases hr.due with ⟨hready, -⟩ | ⟨hrun, -⟩
        · rw [hrow, hst] at hready
          cases hready
        · rw [hrow, hst] at hrun
          cases hrun
  · obtain ⟨j', hj', hty', hsub', -⟩ := hs.lease_job l hl
    have hk : l.id = k := hs.subject_unique l.id k j' j hj' hj
      (hty'.trans (hlty.trans hty.symm)) (hsub'.trans hsub)
    have ho : owns s.db l now = false :=
      Superseded.not_owns (by rw [hk]; exact hj) (.cancelled hst)
    unfold JobRepository.claimBuildSubject
    rw [ho]
    exact if_neg Bool.false_ne_true

/-- Cancellation safety: after a `cancel` on a task that was not terminal, the request is on the
task, the task is never published and no artifact is inserted for it; and when the `cancel` moved
the task to `CANCELLED`, its job is never leased and the task never claimed. -/
theorem cancel_safety {s s' t : SystemState} {c : CancelTransaction} {task : BuildTask}
    (hreach : (jobSystem repo encode).Reachable PipelineUse s)
    (hcancel : (jobSystem repo encode).step s (.finishCancel c) s')
    (htask : s.db.task? c.taskId = some task) (hterm : task.status.isTerminal = false)
    (hrun : (jobSystem repo encode).Steps PipelineUse s' t) :
    (∃ task', s'.db.task? c.taskId = some task' ∧ task'.cancelRequested = true ∧
      (task'.status = .cancelled → Unclaimable repo t c.taskId)) ∧
    (∃ task', t.db.task? c.taskId = some task' ∧ task'.status.isPublished = false) ∧
    t.db.artifactsOf c.taskId = s'.db.artifactsOf c.taskId := by
  have hs := wellFormed_of_reachable hreach
  have hreach' : (jobSystem repo encode).Reachable PipelineUse s' :=
    hreach.step (a := .finishCancel c) trivial hcancel
  have hs' := wellFormed_of_reachable hreach'
  -- what the `cancel` committed
  obtain ⟨task', ht', hreq, hpub, hjob⟩ : ∃ task', s'.db.task? c.taskId = some task' ∧
      task'.cancelRequested = true ∧ task'.status.isPublished = false ∧
      (task'.status = .cancelled → ∃ k j, s'.db.job? k = some j ∧ j.jobType = .build ∧
        j.subjectId = c.taskId ∧ j.status = .cancelled) := by
    cases hcancel with
    | @finishCancel _ matched db' hc hm hf =>
        obtain ⟨task₀, task', hfin⟩ := finishCancel_ok hf
        have htask₀ := htask.symm.trans hfin.found
        cases htask₀
        have ht' : db'.task? c.taskId = some task' := (hfin.task _).trans (if_pos rfl)
        refine ⟨task', ht', ?_⟩
        cases hfin.result with
        | terminal h =>
            rw [hterm] at h
            cases h
        | cancelled hq hone =>
            refine ⟨rfl, rfl, fun _ => ?_⟩
            obtain ⟨k, hk⟩ := List.length_eq_one_iff.1 hone
            obtain ⟨j, hj, -, hty, hsub⟩ := (hs.cancel_matched c hc matched hm).2 k
              (by rw [hk]; exact List.mem_singleton_self k)
            refine ⟨k, cancelledByApi c.now j, ?_, hty, hsub, rfl⟩
            show db'.job? k = _
            rw [hfin.job, hj, Option.map_some, if_pos (by rw [hk]; exact List.mem_singleton_self k)]
        | requested h hn versionNo =>
            refine ⟨rfl, Bool.eq_false_iff.2 fun hp => ?_, fun hcan => ?_⟩
            · rw [BuildStatus.isTerminal_of_isPublished hp] at hterm
              cases hterm
            · rw [show task.status = .cancelled from hcan] at hterm
              cases hterm
  obtain ⟨k, j, hj, hty, hsub⟩ := hs'.task_job c.taskId task' ht'
  have hv := buildView_eq hj hty (by rw [hsub]; exact ht')
  rw [hsub] at hv
  have hsteps : buildProtocol.Steps System.Any (buildView s' k) (buildView t k) :=
    buildView_steps (fun _ _ h => h) (fun _ _ _ _ _ _ => trivial) hreach' hrun
  rw [hv] at hsteps
  refine ⟨⟨task', ht', hreq, fun hcan => ?_⟩, ?_⟩
  · -- the job was cancelled with the task and stays so
    obtain ⟨k', j', hj', hty', hsub', hst'⟩ := hjob hcan
    have hk := hs'.subject_unique k k' j j' hj hj' (hty.trans hty'.symm) (hsub.trans hsub'.symm)
    subst hk
    have hjj := hj.symm.trans hj'
    cases hjj
    obtain ⟨w, hw, hwst, hwid⟩ := BuildView.preserves
      (P := fun v => v.jobStatus = .cancelled ∧ v.taskId = c.taskId)
      (fun v a w hv _ hstep => ⟨(cancelled_step hv.1 hstep).1, hstep.taskId_eq.trans hv.2⟩)
      hsteps ⟨hst', hsub⟩
    obtain ⟨j₁, t₁, hj₁, hty₁, -, rfl⟩ := buildView_rows hw
    rw [← show j₁.subjectId = c.taskId from hwid]
    exact unclaimable_of_cancelled (wellFormed_of_reachable (hreach'.steps hrun)) hj₁ hty₁ hwst
  · obtain ⟨w, hw, hcan, hwid⟩ := BuildView.preserves
      (P := fun v => v.Cancelling (s'.db.artifactsOf c.taskId) ∧ v.taskId = c.taskId)
      (fun v a w hv _ hstep => ⟨cancelling_step hv.1 hstep, hstep.taskId_eq.trans hv.2⟩)
      hsteps ⟨⟨hreq, hpub, rfl⟩, hsub⟩
    obtain ⟨j₁, t₁, hj₁, hty₁, ht₁, rfl⟩ := buildView_rows hw
    have hid : j₁.subjectId = c.taskId := hwid
    rw [hid] at ht₁
    refine ⟨⟨t₁, ht₁, hcan.unpublished⟩, ?_⟩
    have hart : t.db.artifactsOf j₁.subjectId = s'.db.artifactsOf c.taskId := hcan.artifacts_eq
    rw [hid] at hart
    exact hart

/-- A created build and a `cancel` that is about to commit. -/
def cancelActions : List SystemAction :=
  createdActions ++ [.beginCancel "u" "t" 50, .matchCancel ⟨"u", "t", 50, .queued, none⟩]

theorem cancel_safety_created :
    ∃ task', (sampleState (cancelActions ++
        [.finishCancel ⟨"u", "t", 50, .queued, some ["b"]⟩])).db.task? "t" = some task' ∧
      task'.status.isPublished = false :=
  (cancel_safety (sampleState_reachable PipelineUse (by decide +kernel))
    (sampleState_step (by decide +kernel) (by decide +kernel)) rfl rfl
    (System.Steps.refl _)).2.1

end WheelForge.Jobs
