import WheelForge.Jobs.Cancellation

/-!
# Job, task and artifacts agree

`Agreement` relates the row of a build job, its task and the artifacts of the task. It can be lost in
one way: a worker takes over a running job, does not get to claim the task and requeues the job;
`_reset_subject_for_retry` then looks for the task of its own execution and leaves the task of the
old execution as it is, while the job is ready again (`not_agreement_requeued`). In the runs in which
every requeue finds the task unclaimed or claimed by its own execution, `Agreement` holds of every
state and terminal tasks keep their status (`agreement_of_run`).
-/

set_option autoImplicit false

namespace WheelForge.Jobs

open WheelForge.Transition
open WheelForge.Api

/-- The relation of a build job, its task and the artifacts of the task. -/
structure Agreement (db : Database) (j : BuildJob) (t : BuildTask) : Prop where
  ready : j.status = .ready → t.status = .queued ∧ t.executionId = none
  completed : j.status = .completed ↔ t.status.isPublished = true
  published : t.status.isPublished = true ↔ ∃ row, db.artifactsOf t.id = [row]
  unpublished : t.status.isPublished = false → db.artifactsOf t.id = []
  failed : j.status = .failed → t.status = .failed
  cancelled : j.status = .cancelled → t.status = .cancelled

/-- Every build job has its task and agrees with it. -/
def AllAgree (db : Database) : Prop :=
  ∀ k j, db.job? k = some j → j.jobType = .build →
    ∃ t, db.task? j.subjectId = some t ∧ Agreement db j t

/-- The task of a lease is unclaimed, or claimed by the lease's execution. -/
def taskClaimedBy (db : Database) (lease : JobLease) : Bool :=
  match db.task? lease.subjectId with
  | some t => decide (t.executionId = none ∨ t.executionId = some lease.executionId)
  | none => true

/-- The condition on a step that a build job is requeued only when its task is unclaimed or claimed
by the requeuing execution. -/
def RequeueOwn : SystemState → SystemAction → Prop
  | s, .operate lease now (.retryOrFail _ retryable _) =>
      retryable = true → lease.attempts < lease.maxAttempts → lease.jobType = .build →
        owns s.db lease now = true → taskClaimedBy s.db lease = true
  | _, _ => True

instance (s : SystemState) (a : SystemAction) : Decidable (RequeueOwn s a) := by
  unfold RequeueOwn
  split <;> infer_instance

/-- The steps of the pipeline and the consumer that requeue their own task. -/
def OwnRequeues (s : SystemState) (a : SystemAction) : Prop := PipelineUse s a ∧ RequeueOwn s a

instance (s : SystemState) (a : SystemAction) : Decidable (OwnRequeues s a) := by
  unfold OwnRequeues
  infer_instance

theorem agreement_of_coherent {s : SystemState} {j : BuildJob} {t : BuildTask}
    (ht : s.db.task? j.subjectId = some t)
    (h : (BuildView.ofRows j (s.holder j) t (s.db.artifactsOf j.subjectId)).Coherent) :
    Agreement s.db j t := by
  have hc := h.consistent
  have hid : t.id = j.subjectId := task?_id ht
  have hlive : t.status.isNonterminal = true → t.status.isPublished = false := by
    intro hn
    cases hp : t.status.isPublished with
    | false => rfl
    | true =>
        have := BuildStatus.isTerminal_of_isPublished hp
        rw [BuildStatus.not_isTerminal_of_isNonterminal hn] at this
        cases this
  -- a published task has a completed job with one artifact, any other task has none
  have hcase : (j.status = .completed ∧ t.status.isPublished = true ∧
      ∃ row, s.db.artifactsOf j.subjectId = [row]) ∨
      (j.status ≠ .completed ∧ t.status.isPublished = false ∧
        s.db.artifactsOf j.subjectId = []) := by
    cases hst : j.status with
    | ready => exact Or.inr ⟨nofun, hlive (hc.ready hst).1, (hc.ready hst).2.1⟩
    | running => exact Or.inr ⟨nofun, hlive (hc.running hst).1, (hc.running hst).2.1⟩
    | completed => exact Or.inl ⟨rfl, hc.completed hst⟩
    | failed =>
        have hf : t.status = .failed := (hc.failed hst).1
        exact Or.inr ⟨nofun, by rw [hf]; rfl, (hc.failed hst).2⟩
    | cancelled =>
        have hf : t.status = .cancelled := h.cancelled hst
        exact Or.inr ⟨nofun, by rw [hf]; rfl, (hc.cancelled hst).2⟩
  refine
    { ready := h.ready
      completed := ?_
      published := ?_
      unpublished := fun hp => ?_
      failed := fun hst => (hc.failed hst).1
      cancelled := h.cancelled }
  · rcases hcase with ⟨hj, hp, -⟩ | ⟨hj, hp, -⟩
    · exact ⟨fun _ => hp, fun _ => hj⟩
    · exact ⟨fun h => absurd h hj, fun h => absurd (hp.symm.trans h) nofun⟩
  · rw [hid]
    rcases hcase with ⟨-, hp, hrow⟩ | ⟨-, hp, hnil⟩
    · exact ⟨fun _ => hrow, fun _ => hp⟩
    · refine ⟨fun h => absurd (hp.symm.trans h) nofun, fun ⟨row, hrow⟩ => ?_⟩
      rw [hnil] at hrow
      cases hrow
  · rw [hid]
    rcases hcase with ⟨-, hp', -⟩ | ⟨-, -, hnil⟩
    · rw [hp] at hp'
      cases hp'
    · exact hnil

section Runs

variable {repo : JobRepository} {encode : WireEncoder}

/-- A requeue that meets the condition finds its own task in the view. -/
theorem requeueClaimed_of_own {s : SystemState} {a : SystemAction} {b : BuildAction} {k : Uuid}
    (hs : WellFormed s) (hc : OwnRequeues s a) (hcause : BuildCause s a k b) :
    RequeueClaimed (buildView s k) b := by
  cases b with
  | requeue l =>
      obtain ⟨hl, rfl, hlty, now, error, delay, rfl, ho, hlt⟩ := hcause
      have hclaimed := hc.2 rfl hlt hlty ho
      obtain ⟨j, hj, hty, hsub, -⟩ := hs.lease_job l hl
      obtain ⟨t, ht⟩ := hs.build_subject l.id j hj (hty.trans hlty)
      rw [buildView_eq hj (hty.trans hlty) ht]
      unfold taskClaimedBy at hclaimed
      rw [← hsub, ht] at hclaimed
      have hown : t.executionId = none ∨ t.executionId = some l.executionId :=
        of_decide_eq_true hclaimed
      exact hown
  | _ =>
      cases buildView s k <;> trivial

/-- In the runs in which every requeue finds its own task, every build job agrees with its task and
its artifacts, and a terminal task keeps its status. -/
theorem agreement_of_run {s t : SystemState}
    (hreach : (jobSystem repo encode).Reachable OwnRequeues s)
    (hrun : (jobSystem repo encode).Steps OwnRequeues s t) :
    AllAgree t.db ∧ ∀ k task, s.db.task? k = some task → task.status.isTerminal = true →
      ∃ task', t.db.task? k = some task' ∧ task'.status = task.status := by
  have hreach' := hreach.steps hrun
  have hs := wellFormed_of_reachable hreach
  have ht := wellFormed_of_reachable hreach'
  constructor
  · intro k j hj hty
    obtain ⟨task, htask⟩ := ht.build_subject k j hj hty
    have hview : buildProtocol.Reachable RequeueClaimed (buildView t k) :=
      buildView_reachable (fun _ _ h => h.1)
        (fun _ _ _ hwf hc hcause => requeueClaimed_of_own hwf hc hcause) hreach'
    rw [buildView_eq hj hty htask] at hview
    exact ⟨task, htask, agreement_of_coherent htask (coherent_of_reachable hview)⟩
  · intro k task htask hterm
    obtain ⟨i, j, hj, hty, hsub⟩ := hs.task_job k task htask
    have hv := buildView_eq hj hty (by rw [hsub]; exact htask)
    have hview : buildProtocol.Reachable System.Any (buildView s i) :=
      buildView_reachable (fun _ _ h => h.1) (fun _ _ _ _ _ _ => trivial) hreach
    have hsteps : buildProtocol.Steps System.Any (buildView s i) (buildView t i) :=
      buildView_steps (fun _ _ h => h.1) (fun _ _ _ _ _ _ => trivial) hreach hrun
    rw [hv] at hview hsteps
    obtain ⟨w, hw, -, hst, hid⟩ := BuildView.preserves
      (P := fun v => v.Consistent ∧ v.taskStatus = task.status ∧ v.taskId = k)
      (fun v a w hv _ hstep => ⟨consistent_step hv.1 hstep,
        (terminal_step hv.1 (by rw [hv.2.1]; exact hterm) hstep).trans hv.2.1,
        hstep.taskId_eq.trans hv.2.2⟩)
      hsteps ⟨consistent_of_reachable hview, rfl, hsub⟩
    obtain ⟨j', task', -, -, htask', rfl⟩ := buildView_rows hw
    rw [show j'.subjectId = k from hid] at htask'
    exact ⟨task', htask', hst⟩

end Runs

theorem agreement_of_run_created : AllAgree (sampleState createdActions).db :=
  (agreement_of_run (sampleState_reachable OwnRequeues (by decide +kernel))
    (System.Steps.refl _)).1

/-! ## A requeue without the subject -/

/-- A build is claimed, its lease expires, and the worker that takes the job over requeues it before
it has claimed the task. -/
def unclaimedRequeueActions : List SystemAction :=
  createdActions ++
    [.claim "w" "e1" (fun _ => false) 50,
      .operate (sampleLease "b" .build "t" "e1" 1 none) 60 .claimBuildSubject,
      .claim "w" "e2" (fun _ => false) 100000000,
      .operate (sampleLease "b" .build "t" "e2" 2 (some "e1")) 100000010
        (.retryOrFail "OperationalError" true 0)]

/-- The job is ready while its task is `RESOLVING` under the first execution. -/
theorem not_agreement_requeued :
    (jobSystem sampleRepository sampleEncoder).Reachable PipelineUse
        (sampleState unclaimedRequeueActions) ∧
      ¬ AllAgree (sampleState unclaimedRequeueActions).db := by
  refine ⟨sampleState_reachable PipelineUse (by decide +kernel), fun h => ?_⟩
  have hj : ∃ j, (sampleState unclaimedRequeueActions).db.job? "b" = some j ∧
      j.status = .ready ∧ j.jobType = .build ∧ j.subjectId = "t" := ⟨_, rfl, rfl, rfl, rfl⟩
  have ht : ∃ t, (sampleState unclaimedRequeueActions).db.task? "t" = some t ∧
      t.status = .resolving := ⟨_, rfl, rfl⟩
  obtain ⟨j, hj, hst, hty, hsub⟩ := hj
  obtain ⟨t, ht, hres⟩ := ht
  obtain ⟨t', ht', hagree⟩ := h "b" j hj hty
  rw [hsub, ht] at ht'
  cases ht'
  have hq := (hagree.ready hst).1
  rw [hres] at hq
  cases hq

end WheelForge.Jobs
