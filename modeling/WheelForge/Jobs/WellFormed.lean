import Mathlib.Data.List.Flatten
import WheelForge.Jobs.StepEffect

/-!
# Well-formed system states

Leases have distinct executions and point to the job they were issued for, a running job runs under
an issued lease, every job has its subject and every subject one job of its type, and the rows that
an open `cancel` has matched stay ready. These hold in every state that any interleaving reaches
(`wellFormed_of_reachable`); no condition on the operations is needed.
-/

set_option autoImplicit false

namespace WheelForge.Jobs

open WheelForge.Relational
open WheelForge.Transition
open WheelForge.Api

/-- The invariants of the system that concern identities only. -/
structure WellFormed (s : SystemState) : Prop where
  leases_distinct : (s.leases.map JobLease.executionId).Nodup
  lease_job : ∀ l ∈ s.leases, ∃ j, s.db.job? l.id = some j ∧ j.jobType = l.jobType ∧
    j.subjectId = l.subjectId ∧ j.maxAttempts = l.maxAttempts
  running_lease : ∀ k j, s.db.job? k = some j → j.status = .running →
    ∃ l ∈ s.leases, l.id = k ∧ j.executionId = some l.executionId
  task_execution : ∀ k t e, s.db.task? k = some t → t.executionId = some e →
    e ∈ s.leases.map JobLease.executionId
  build_subject : ∀ k j, s.db.job? k = some j → j.jobType = .build →
    ∃ t, s.db.task? j.subjectId = some t
  task_job : ∀ k t, s.db.task? k = some t →
    ∃ i j, s.db.job? i = some j ∧ j.jobType = .build ∧ j.subjectId = k
  parse_subject : ∀ k j, s.db.job? k = some j → j.jobType = .requirementParse →
    ∃ f, s.db.file? j.subjectId = some f
  subject_unique : ∀ k k' j j', s.db.job? k = some j → s.db.job? k' = some j' →
    j.jobType = j'.jobType → j.subjectId = j'.subjectId → k = k'
  cancel_matched : ∀ c ∈ s.cancels, ∀ ids, c.matched = some ids → ids.length ≤ 1 ∧
    ∀ k ∈ ids, ∃ j, s.db.job? k = some j ∧ j.status = .ready ∧ j.jobType = .build ∧
      j.subjectId = c.taskId
  cancel_disjoint : (lockedRows s).Nodup
  artifact_task : ∀ a ∈ s.db.artifacts, ∃ t, s.db.task? a.buildTaskId = some t

theorem wellFormed_init : WellFormed ⟨Database.empty, [], [], []⟩ where
  leases_distinct := List.nodup_nil
  lease_job l hl := absurd hl List.not_mem_nil
  running_lease k j h := absurd h (by simp [Database.job?, Database.empty, Table.find?, Table.empty])
  task_execution k t e h :=
    absurd h (by simp [Database.task?, Database.empty, Table.find?, Table.empty])
  build_subject k j h :=
    absurd h (by simp [Database.job?, Database.empty, Table.find?, Table.empty])
  task_job k t h :=
    absurd h (by simp [Database.task?, Database.empty, Table.find?, Table.empty])
  parse_subject k j h :=
    absurd h (by simp [Database.job?, Database.empty, Table.find?, Table.empty])
  subject_unique k k' j j' h :=
    absurd h (by simp [Database.job?, Database.empty, Table.find?, Table.empty])
  cancel_matched c hc := absurd hc List.not_mem_nil
  cancel_disjoint := List.nodup_nil
  artifact_task a ha := absurd ha List.not_mem_nil

/-! ## Through an effect -/

/-- Well-formedness through an effect on the rows of a lease: the old leases are kept, a job that
runs afterwards has its lease, the row was not locked by a `cancel`, and the task's execution and
the artifacts are accounted for. -/
theorem WellFormed.of_applies {s s' : SystemState} (hs : WellFormed s) {target : JobLease}
    {row : BuildJob} {e : Effect} (happ : Applies target s.db s'.db row e)
    (hdistinct : (s'.leases.map JobLease.executionId).Nodup)
    (hkept : ∀ l ∈ s.leases, l ∈ s'.leases)
    (hnew : ∀ l ∈ s'.leases, l ∈ s.leases ∨
      (l.id = target.id ∧ l.jobType = row.jobType ∧ l.subjectId = row.subjectId ∧
        l.maxAttempts = row.maxAttempts))
    (hrun : (e.job row).status = .running →
      ∃ l ∈ s'.leases, l.id = target.id ∧ (e.job row).executionId = some l.executionId)
    (hlocked : target.id ∉ lockedRows s)
    (htask : ∀ t x, s.db.task? target.subjectId = some t → (e.task t).executionId = some x →
      x ∈ s'.leases.map JobLease.executionId)
    (hart : ∀ a ∈ e.artifacts, ∃ t, s.db.task? a.buildTaskId = some t)
    (hcancels : s'.cancels = s.cancels) : WellFormed s' := by
  have hsame : lockedRows s' = lockedRows s := by unfold lockedRows; rw [hcancels]
  refine
    { leases_distinct := hdistinct
      lease_job := fun l hl => ?_
      running_lease := fun k j hj hst => ?_
      task_execution := fun k t x ht hx => ?_
      build_subject := fun k j hj hty => ?_
      task_job := fun k t ht => ?_
      parse_subject := fun k j hj hty => ?_
      subject_unique := fun k k' j j' hj hj' hty hsub => ?_
      cancel_matched := fun c hc ids hm => ?_
      cancel_disjoint := by rw [hsame]; exact hs.cancel_disjoint
      artifact_task := fun a ha => ?_ }
  · rcases hnew l hl with hold | ⟨hid, hty, hsub, hmax⟩
    · obtain ⟨j, hj, hty, hsub, hmax⟩ := hs.lease_job l hold
      obtain ⟨j', hj', hsame'⟩ := happ.job_forward hj
      exact ⟨j', hj', hsame'.jobType.trans hty, hsame'.subjectId.trans hsub,
        hsame'.maxAttempts.trans hmax⟩
    · refine ⟨e.job row, ?_, ?_, ?_, ?_⟩
      · rw [hid]
        exact happ.job?_self
      · exact (e.job_same row).jobType.trans hty.symm
      · exact (e.job_same row).subjectId.trans hsub.symm
      · exact (e.job_same row).maxAttempts.trans hmax.symm
  · rcases happ.job_cases hj with ⟨-, hj⟩ | ⟨rfl, rfl⟩
    · obtain ⟨l, hl, hid, he⟩ := hs.running_lease k j hj hst
      exact ⟨l, hkept l hl, hid, he⟩
    · exact hrun hst
  · obtain ⟨t₀, ht₀, rfl⟩ := happ.task_backward ht
    by_cases hk : k = target.subjectId
    · rw [if_pos hk] at hx
      subst hk
      exact htask t₀ x ht₀ hx
    · rw [if_neg hk] at hx
      obtain ⟨l, hl, rfl⟩ := List.mem_map.1 (hs.task_execution k t₀ x ht₀ hx)
      exact List.mem_map.2 ⟨l, hkept l hl, rfl⟩
  · obtain ⟨j₀, hj₀, hsame'⟩ := happ.job_backward hj
    obtain ⟨t, ht⟩ := hs.build_subject k j₀ hj₀ (hsame'.jobType.symm.trans hty)
    rw [hsame'.subjectId]
    exact ⟨_, happ.task_forward ht⟩
  · obtain ⟨t₀, ht₀, -⟩ := happ.task_backward ht
    obtain ⟨i, j, hj, hty, hsub⟩ := hs.task_job k t₀ ht₀
    obtain ⟨j', hj', hsame'⟩ := happ.job_forward hj
    exact ⟨i, j', hj', hsame'.jobType.trans hty, hsame'.subjectId.trans hsub⟩
  · obtain ⟨j₀, hj₀, hsame'⟩ := happ.job_backward hj
    obtain ⟨f, hf⟩ := hs.parse_subject k j₀ hj₀ (hsame'.jobType.symm.trans hty)
    rw [hsame'.subjectId]
    exact ⟨_, happ.file_forward hf⟩
  · obtain ⟨j₀, hj₀, hsame'⟩ := happ.job_backward hj
    obtain ⟨j₀', hj₀', hsame''⟩ := happ.job_backward hj'
    refine hs.subject_unique k k' j₀ j₀' hj₀ hj₀' ?_ ?_
    · rw [← hsame'.jobType, ← hsame''.jobType]
      exact hty
    · rw [← hsame'.subjectId, ← hsame''.subjectId]
      exact hsub
  · rw [hcancels] at hc
    obtain ⟨hlen, hids⟩ := hs.cancel_matched c hc ids hm
    refine ⟨hlen, fun k hk => ?_⟩
    obtain ⟨j, hj, hst, hty, hsub⟩ := hids k hk
    have hne : k ≠ target.id := by
      rintro rfl
      exact hlocked (List.mem_flatMap.2 ⟨c, hc, by rw [hm]; exact hk⟩)
    refine ⟨j, ?_, hst, hty, hsub⟩
    rw [happ.job, if_neg hne]
    exact hj
  · rcases happ.mem_artifacts.1 ha with hold | hnew'
    · obtain ⟨t, ht⟩ := hs.artifact_task a hold
      exact ⟨_, happ.task_forward ht⟩
    · obtain ⟨t, ht⟩ := hart a hnew'
      exact ⟨_, happ.task_forward ht⟩

/-- A row locked by an open `cancel` is ready. -/
theorem WellFormed.locked_ready {s : SystemState} (hs : WellFormed s) {k : Uuid}
    (hk : k ∈ lockedRows s) : ∃ j, s.db.job? k = some j ∧ j.status = .ready := by
  obtain ⟨c, hc, hk⟩ := List.mem_flatMap.1 hk
  cases hm : c.matched with
  | none => rw [hm] at hk; cases hk
  | some ids =>
      rw [hm] at hk
      obtain ⟨j, hj, hst, -⟩ := (hs.cancel_matched c hc ids hm).2 k hk
      exact ⟨j, hj, hst⟩

/-! ## Cancellation -/

/-- The update of a `cancel` matches at most the one build job of the task. -/
theorem WellFormed.matchReadyJobs_length {s : SystemState} (hs : WellFormed s)
    (c : CancelTransaction) : (matchReadyJobs c s.db).length ≤ 1 := by
  have hnodup := matchReadyJobs_nodup c s.db
  have hall : ∀ k ∈ matchReadyJobs c s.db, ∀ k' ∈ matchReadyJobs c s.db, k = k' := by
    intro k hk k' hk'
    obtain ⟨j, hj, -, hty, hsub⟩ := mem_matchReadyJobs hk
    obtain ⟨j', hj', -, hty', hsub'⟩ := mem_matchReadyJobs hk'
    exact hs.subject_unique k k' j j' hj hj' (hty.trans hty'.symm) (hsub.trans hsub'.symm)
  cases hm : matchReadyJobs c s.db with
  | nil => exact Nat.zero_le 1
  | cons k rest =>
      cases rest with
      | nil => exact Nat.le_refl 1
      | cons k' rest' =>
          rw [hm] at hnodup hall
          have heq := hall k (by simp) k' (by simp)
          rw [heq] at hnodup
          simp at hnodup

theorem lockedRows_perm {s : SystemState} {c : CancelTransaction} (hc : c ∈ s.cancels) :
    (lockedRows s).Perm
      (c.matched.getD [] ++ (s.cancels.erase c).flatMap fun c => c.matched.getD []) := by
  unfold lockedRows
  exact (List.perm_cons_erase hc).flatMap_right _

/-! ## Steps -/

variable {repo : JobRepository} {encode : WireEncoder}

theorem wellFormed_claim {s : SystemState} (hs : WellFormed s) {workerId : String}
    {executionId : Uuid} {locked : Uuid → Bool} {now : DateTime}
    (hfresh : executionId ∉ s.leases.map JobLease.executionId)
    (hlocked : ∀ k ∈ lockedRows s, locked k = true) {pass : ClaimPass} {db' : Database}
    (h : ClaimCase repo workerId executionId locked now s.db pass db') :
    WellFormed { s with db := db', leases := addLease s.leases pass } := by
  have hunlocked : ∀ row, Claimable s.db locked now row → row.id ∉ lockedRows s := by
    intro row hr hmem
    have hlock := hlocked _ hmem
    rw [hr.unlocked] at hlock
    cases hlock
  cases h with
  | idle => exact hs
  | exhausted hr ha happ =>
      refine hs.of_applies happ hs.leases_distinct (fun l hl => hl) (fun l hl => Or.inl hl)
        (fun hst => ?_) (hunlocked _ hr) (fun t x ht hx => ?_) (fun a ha => ?_) rfl
      · cases hst
      · refine hs.task_execution _ t x ht ?_
        rw [← hx]
        exact (BuildTask.terminalizedBy_execution _ _ _ _ _).symm
      · cases ha
  | @leased row _ hr ha happ =>
      refine hs.of_applies happ ?_ (fun l hl => List.mem_append_left _ hl) (fun l hl => ?_)
        (fun _ => ?_) (hunlocked _ hr) (fun t x ht hx => ?_) (fun a ha => ?_) rfl
      · show ((s.leases ++ [repo.leaseOf row workerId executionId]).map _).Nodup
        rw [List.map_append, List.nodup_append]
        refine ⟨hs.leases_distinct, List.nodup_singleton _, fun a ha b hb hab => ?_⟩
        rw [List.map_singleton, List.mem_singleton] at hb
        rw [hab, hb] at ha
        exact hfresh ha
      · rcases List.mem_append.1 hl with hl | hl
        · exact Or.inl hl
        · rw [List.mem_singleton.1 hl]
          exact Or.inr ⟨rfl, rfl, rfl, rfl⟩
      · exact ⟨_, List.mem_append_right _ (List.mem_singleton_self _), rfl, rfl⟩
      · rw [show addLease s.leases (.leased (repo.leaseOf row workerId executionId)) =
          s.leases ++ [repo.leaseOf row workerId executionId] from rfl, List.map_append]
        exact List.mem_append_left _ (hs.task_execution _ t x ht hx)
      · cases ha

theorem wellFormed_operate {s : SystemState} (hs : WellFormed s) {lease : JobLease}
    (hl : lease ∈ s.leases) {now : DateTime} {op : LeaseOperation} (claimed : List Uuid) :
    WellFormed { s with db := perform repo lease now op s.db, claimed := claimed } := by
  cases ho : owns s.db lease now with
  | false =>
      rw [perform_of_not_owns repo ho]
      exact { hs with }
  | true =>
      obtain ⟨j, hj⟩ := owns_eq_true_iff.1 ho
      obtain ⟨e, he, happ⟩ := perform_effective repo hj op
      have hmem : lease.executionId ∈ s.leases.map JobLease.executionId :=
        List.mem_map.2 ⟨lease, hl, rfl⟩
      refine hs.of_applies happ hs.leases_distinct
        (fun l hl => hl) (fun l hl => Or.inl hl) (fun hst => ?_) (fun hlock => ?_)
        (fun t x ht hx => ?_) (fun a ha => ?_) rfl
      · exact ⟨lease, hl, rfl, (he.job_running hst).2.trans hj.execution⟩
      · obtain ⟨j', hj', hst⟩ := hs.locked_ready hlock
        rw [hj.found] at hj'
        cases hj'
        rw [hj.running] at hst
        cases hst
      · rcases he.task_execution t with h | h | h
        · exact hs.task_execution _ t x ht (h.symm.trans hx)
        · rw [h] at hx
          cases hx
        · rw [h] at hx
          cases hx
          exact hmem
      · obtain ⟨hsub, ht⟩ := he.artifact_task ha
        rw [hsub]
        exact ht

/-- Well-formedness when a job and its subject are inserted. -/
theorem WellFormed.of_insert {s : SystemState} (hs : WellFormed s) {db' : Database}
    (job : BuildJob) (hjob : s.db.job? job.id = none) (hst : job.status = .ready)
    (jobs : ∀ k, db'.job? k = if k = job.id then some job else s.db.job? k)
    (hsubject : ∀ k j, s.db.job? k = some j → j.jobType = job.jobType →
      j.subjectId ≠ job.subjectId)
    (hbuild : job.jobType = .build → ∃ t, db'.task? job.subjectId = some t)
    (hparse : job.jobType = .requirementParse → ∃ f, db'.file? job.subjectId = some f)
    (tasks : ∀ k t, s.db.task? k = some t → db'.task? k = some t)
    (hold : ∀ k t, db'.task? k = some t →
      (∃ t', s.db.task? k = some t') ∨ (job.jobType = .build ∧ job.subjectId = k))
    (htask : ∀ k t x, db'.task? k = some t → t.executionId = some x →
      s.db.task? k = some t)
    (files : ∀ k f, s.db.file? k = some f → db'.file? k = some f)
    (artifacts : db'.artifacts = s.db.artifacts) : WellFormed { s with db := db' } := by
  have hkept : ∀ k j, s.db.job? k = some j → db'.job? k = some j := by
    intro k j hj
    rw [jobs, if_neg (by rintro rfl; rw [hjob] at hj; cases hj)]
    exact hj
  have hcases : ∀ k j, db'.job? k = some j → s.db.job? k = some j ∨ (k = job.id ∧ j = job) := by
    intro k j hj
    rw [jobs] at hj
    split at hj
    · next hk =>
      cases hj
      exact Or.inr ⟨hk, rfl⟩
    · exact Or.inl hj
  refine
    { leases_distinct := hs.leases_distinct
      lease_job := fun l hl => ?_
      running_lease := fun k j hj hrun => ?_
      task_execution := fun k t x ht hx => hs.task_execution k t x (htask k t x ht hx) hx
      build_subject := fun k j hj hty => ?_
      task_job := fun k t ht => ?_
      parse_subject := fun k j hj hty => ?_
      subject_unique := fun k k' j j' hj hj' hty hsub => ?_
      cancel_matched := fun c hc ids hm => ?_
      cancel_disjoint := hs.cancel_disjoint
      artifact_task := fun a ha => ?_ }
  · obtain ⟨j, hj, hrest⟩ := hs.lease_job l hl
    exact ⟨j, hkept _ _ hj, hrest⟩
  · rcases hcases k j hj with h | ⟨-, rfl⟩
    · exact hs.running_lease k j h hrun
    · rw [hst] at hrun
      cases hrun
  · rcases hcases k j hj with h | ⟨-, rfl⟩
    · obtain ⟨t, ht⟩ := hs.build_subject k j h hty
      exact ⟨t, tasks _ _ ht⟩
    · exact hbuild hty
  · rcases hold k t ht with ⟨t', ht'⟩ | ⟨hty, hsub⟩
    · obtain ⟨i, j, hj, hrest⟩ := hs.task_job k t' ht'
      exact ⟨i, j, hkept i j hj, hrest⟩
    · exact ⟨job.id, job, (jobs _).trans (if_pos rfl), hty, hsub⟩
  · rcases hcases k j hj with h | ⟨-, rfl⟩
    · obtain ⟨f, hf⟩ := hs.parse_subject k j h hty
      exact ⟨f, files _ _ hf⟩
    · exact hparse hty
  · rcases hcases k j hj with h | ⟨hk, rfl⟩
    · rcases hcases k' j' hj' with h' | ⟨-, rfl⟩
      · exact hs.subject_unique k k' j j' h h' hty hsub
      · exact absurd hsub (hsubject k j h hty)
    · rcases hcases k' j' hj' with h' | ⟨hk', rfl⟩
      · exact absurd hsub.symm (hsubject k' j' h' hty.symm)
      · exact hk.trans hk'.symm
  · obtain ⟨hlen, hids⟩ := hs.cancel_matched c hc ids hm
    refine ⟨hlen, fun k hk => ?_⟩
    obtain ⟨j, hj, hrest⟩ := hids k hk
    exact ⟨j, hkept _ _ hj, hrest⟩
  · rw [Table.mem_def, artifacts] at ha
    obtain ⟨t, ht⟩ := hs.artifact_task a ha
    exact ⟨t, tasks _ _ ht⟩

theorem wellFormed_request {s : SystemState} (hs : WellFormed s) {db' : Database}
    (h : RequestEffect s.db db') : WellFormed { s with db := db' } := by
  cases h with
  | build task payload jobId now file key hnew hfile howner hkey hsource htask hjob jobs tasks
      files artifacts =>
      have hfresh : ∀ k t, s.db.task? k = some t → k ≠ task.id := by
        rintro k t ht rfl
        rw [htask] at ht
        cases ht
      refine hs.of_insert (newJob jobId .build task.id payload now) hjob rfl jobs
        (fun k j hj hty hsub => ?_) (fun _ => ⟨task, ?_⟩) (fun hty => by cases hty)
        (fun k t ht => ?_) (fun k t ht => ?_) (fun k t x ht hx => ?_)
        (fun k f hf => (files k).trans hf) artifacts
      · obtain ⟨t, ht⟩ := hs.build_subject k j hj hty
        exact hfresh _ _ ht hsub
      · exact (tasks _).trans (if_pos rfl)
      · rw [tasks, if_neg (hfresh k t ht)]
        exact ht
      · rw [tasks] at ht
        split at ht
        · next hk => exact Or.inr ⟨rfl, hk.symm⟩
        · exact Or.inl ⟨t, ht⟩
      · rw [tasks] at ht
        split at ht
        · cases ht
          obtain ⟨_, _, _, _, _, _, heq⟩ := hnew
          rw [heq] at hx
          cases hx
        · exact ht
  | parse file payload jobId now hnew hkey hfile hjob jobs tasks files artifacts =>
      have hfresh : ∀ k f, s.db.file? k = some f → k ≠ file.id := by
        rintro k f hf rfl
        rw [hfile] at hf
        cases hf
      refine hs.of_insert (newJob jobId .requirementParse file.id payload now) hjob rfl jobs
        (fun k j hj hty hsub => ?_) (fun hty => by cases hty) (fun _ => ⟨file, ?_⟩)
        (fun k t ht => (tasks k).trans ht) (fun k t ht => Or.inl ⟨t, (tasks k).symm.trans ht⟩)
        (fun k t x ht _ => (tasks k).symm.trans ht) (fun k f hf => ?_) artifacts
      · obtain ⟨f, hf⟩ := hs.parse_subject k j hj hty
        exact hfresh _ _ hf hsub
      · exact (files _).trans (if_pos rfl)
      · rw [files, if_neg (hfresh k f hf)]
        exact hf
  | delete task now htask hd =>
      have hid : (softDelete task now).id = task.id := by unfold softDelete; split <;> rfl
      have hexec : (softDelete task now).executionId = task.executionId := by
        unfold softDelete; split <;> rfl
      have hread : ∀ k, db'.task? k =
          if k = task.id then some (softDelete task now) else s.db.task? k := by
        intro k
        rw [hd, Database.task?_setTask, hid]
        split
        · next hk =>
          subst hk
          rw [htask]
          rfl
        · rfl
      have htasks : ∀ k t, s.db.task? k = some t → ∃ t', db'.task? k = some t' := by
        intro k t ht
        rw [hread]
        split
        · exact ⟨_, rfl⟩
        · exact ⟨t, ht⟩
      refine
        { leases_distinct := hs.leases_distinct
          lease_job := by rw [hd]; exact hs.lease_job
          running_lease := by rw [hd]; exact hs.running_lease
          task_execution := fun k t x ht hx => ?_
          build_subject := fun k j hj hty => ?_
          task_job := fun k t ht => ?_
          parse_subject := by rw [hd]; exact hs.parse_subject
          subject_unique := by rw [hd]; exact hs.subject_unique
          cancel_matched := by rw [hd]; exact hs.cancel_matched
          cancel_disjoint := hs.cancel_disjoint
          artifact_task := fun a ha => ?_ }
      · have ht' : db'.task? k = some t := ht
        rw [hread] at ht'
        split at ht'
        · next hk =>
          cases ht'
          rw [hexec] at hx
          exact hs.task_execution k task x (by rw [hk]; exact htask) hx
        · exact hs.task_execution k t x ht' hx
      · have hj' : s.db.job? k = some j := by rw [hd] at hj; exact hj
        obtain ⟨t, ht⟩ := hs.build_subject k j hj' hty
        exact htasks _ _ ht
      · have ht' : db'.task? k = some t := ht
        have hold : ∃ t₀, s.db.task? k = some t₀ := by
          rw [hread] at ht'
          split at ht'
          · next hk => exact ⟨task, by rw [hk]; exact htask⟩
          · exact ⟨t, ht'⟩
        obtain ⟨t₀, ht₀⟩ := hold
        rw [hd]
        exact hs.task_job k t₀ ht₀
      · have ha' : a ∈ s.db.artifacts := by rw [hd] at ha; exact ha
        obtain ⟨t, ht⟩ := hs.artifact_task a ha'
        exact htasks _ _ ht

/-- Dropping an open `cancel`. -/
theorem WellFormed.erase_cancel {s : SystemState} (hs : WellFormed s) (c : CancelTransaction) :
    WellFormed { s with cancels := s.cancels.erase c } :=
  { hs with
    cancel_matched := fun c' hc' => hs.cancel_matched c' (List.mem_of_mem_erase hc')
    cancel_disjoint := hs.cancel_disjoint.sublist (List.erase_sublist.flatMap _) }

theorem wellFormed_matchCancel {s : SystemState} (hs : WellFormed s) {c : CancelTransaction}
    (hc : c ∈ s.cancels) (hm : c.matched = none)
    (hfree : ∀ k ∈ matchReadyJobs c s.db, k ∉ lockedRows s) :
    WellFormed { s with
      cancels := { c with matched := some (matchReadyJobs c s.db) } :: s.cancels.erase c } := by
  have hperm : (lockedRows s).Perm ((s.cancels.erase c).flatMap fun c => c.matched.getD []) := by
    have h := lockedRows_perm hc
    rw [hm] at h
    exact h
  refine { hs with cancel_matched := fun c' hc' ids hids => ?_, cancel_disjoint := ?_ }
  · rcases List.mem_cons.1 hc' with rfl | hc'
    · cases hids
      exact ⟨hs.matchReadyJobs_length c, fun k hk => mem_matchReadyJobs hk⟩
    · exact hs.cancel_matched c' (List.mem_of_mem_erase hc') ids hids
  · show (matchReadyJobs c s.db ++
      (s.cancels.erase c).flatMap fun c => c.matched.getD []).Nodup
    refine List.nodup_append.2 ⟨matchReadyJobs_nodup c s.db,
      hperm.nodup_iff.1 hs.cancel_disjoint, fun k hk k' hk' heq => ?_⟩
    subst heq
    exact hfree k hk (hperm.mem_iff.2 hk')

theorem wellFormed_finishCancel {s : SystemState} (hs : WellFormed s) {c : CancelTransaction}
    {matched : List Uuid} (hc : c ∈ s.cancels) (hm : c.matched = some matched)
    {db' : Database} {task task' : BuildTask}
    (h : FinishedCancel c matched s.db db' task task') :
    WellFormed { s with db := db', cancels := s.cancels.erase c } := by
  have hjobs : ∀ k j', db'.job? k = some j' → ∃ j, s.db.job? k = some j ∧ j.Same j' ∧
      (j'.status = .running → j' = j) := by
    intro k j' hj'
    rw [h.job] at hj'
    obtain ⟨j, hj, rfl⟩ := Option.map_eq_some_iff.1 hj'
    refine ⟨j, hj, ?_, ?_⟩
    · split
      · exact ⟨rfl, rfl, rfl, rfl⟩
      · exact BuildJob.Same.refl j
    · intro hr
      split at hr
      · cases hr
      · next hk => rw [if_neg hk]
  have hforward : ∀ k j, s.db.job? k = some j → k ∉ matched → db'.job? k = some j := by
    intro k j hj hk
    rw [h.job, hj, Option.map_some, if_neg hk]
  have htasks : ∀ k t, s.db.task? k = some t → ∃ t', db'.task? k = some t' := by
    intro k t ht
    rw [h.task]
    split
    · exact ⟨_, rfl⟩
    · exact ⟨t, ht⟩
  refine
    { leases_distinct := hs.leases_distinct
      lease_job := fun l hl => ?_
      running_lease := fun k j hj hrun => ?_
      task_execution := fun k t x ht hx => ?_
      build_subject := fun k j hj hty => ?_
      task_job := fun k t ht => ?_
      parse_subject := fun k j hj hty => ?_
      subject_unique := fun k k' j j' hj hj' hty hsub => ?_
      cancel_matched := fun c' hc' ids hids => ?_
      cancel_disjoint := hs.cancel_disjoint.sublist (List.erase_sublist.flatMap _)
      artifact_task := fun a ha => ?_ }
  · obtain ⟨j, hj, hty, hsub, hmax⟩ := hs.lease_job l hl
    refine ⟨if l.id ∈ matched then cancelledByApi c.now j else j, ?_, ?_⟩
    · show db'.job? l.id = _
      rw [h.job, hj]
      rfl
    · split <;> exact ⟨hty, hsub, hmax⟩
  · obtain ⟨j₀, hj₀, -, heq⟩ := hjobs k j hj
    have hj₀' := heq hrun
    subst hj₀'
    exact hs.running_lease k _ hj₀ hrun
  · have ht' : db'.task? k = some t := ht
    rw [h.task] at ht'
    split at ht'
    · next hk =>
      cases ht'
      refine hs.task_execution k task x (by rw [hk]; exact h.found) ?_
      rw [← h.result.same.2.1]
      exact hx
    · exact hs.task_execution k t x ht' hx
  · obtain ⟨j₀, hj₀, hsame, -⟩ := hjobs k j hj
    obtain ⟨t, ht⟩ := hs.build_subject k j₀ hj₀ (hsame.jobType.symm.trans hty)
    rw [hsame.subjectId]
    exact htasks _ _ ht
  · have ht' : db'.task? k = some t := ht
    have hold : ∃ t₀, s.db.task? k = some t₀ := by
      rw [h.task] at ht'
      split at ht'
      · next hk => exact ⟨task, by rw [hk]; exact h.found⟩
      · exact ⟨t, ht'⟩
    obtain ⟨t₀, ht₀⟩ := hold
    obtain ⟨i, j, hj, hty, hsub⟩ := hs.task_job k t₀ ht₀
    refine ⟨i, if i ∈ matched then cancelledByApi c.now j else j, ?_, ?_⟩
    · show db'.job? i = _
      rw [h.job, hj]
      rfl
    · split <;> exact ⟨hty, hsub⟩
  · obtain ⟨j₀, hj₀, hsame, -⟩ := hjobs k j hj
    obtain ⟨f, hf⟩ := hs.parse_subject k j₀ hj₀ (hsame.jobType.symm.trans hty)
    rw [hsame.subjectId]
    exact ⟨f, (h.file _).trans hf⟩
  · obtain ⟨j₀, hj₀, hsame, -⟩ := hjobs k j hj
    obtain ⟨j₀', hj₀', hsame', -⟩ := hjobs k' j' hj'
    refine hs.subject_unique k k' j₀ j₀' hj₀ hj₀' ?_ ?_
    · rw [← hsame.jobType, ← hsame'.jobType]
      exact hty
    · rw [← hsame.subjectId, ← hsame'.subjectId]
      exact hsub
  · obtain ⟨hlen, hall⟩ := hs.cancel_matched c' (List.mem_of_mem_erase hc') ids hids
    refine ⟨hlen, fun k hk => ?_⟩
    obtain ⟨j, hj, hrest⟩ := hall k hk
    refine ⟨j, hforward k j hj fun hmem => ?_, hrest⟩
    have hd := (lockedRows_perm hc).nodup_iff.1 hs.cancel_disjoint
    rw [hm] at hd
    exact (List.nodup_append.1 hd).2.2 k hmem k
      (List.mem_flatMap.2 ⟨c', hc', by rw [hids]; exact hk⟩) rfl
  · have ha' : a ∈ s.db.artifacts := by
      rw [Table.mem_def] at ha ⊢
      rw [← h.artifacts]
      exact ha
    obtain ⟨t, ht⟩ := hs.artifact_task a ha'
    exact htasks _ _ ht

theorem wellFormed_step {s s' : SystemState} {a : SystemAction} (hs : WellFormed s)
    (h : SystemStep repo encode s a s') : WellFormed s' := by
  cases h with
  | claim hw hfresh hlocked =>
      exact wellFormed_claim hs hfresh hlocked (claimPass_cases repo _ _ _ _ s.db)
  | operate hl => exact wellFormed_operate hs hl _
  | request hr => exact wellFormed_request hs (ApiRequest.run_effect hr)
  | beginCancel hc =>
      rename_i c
      have hnone : c.matched = none := by
        unfold Api.beginCancel at hc
        split at hc
        · cases hc
          rfl
        · cases hc
      refine { hs with cancel_matched := fun c' hc' ids hids => ?_, cancel_disjoint := ?_ }
      · rcases List.mem_cons.1 hc' with rfl | hc'
        · rw [hnone] at hids
          cases hids
        · exact hs.cancel_matched c' hc' ids hids
      · show (c.matched.getD [] ++ lockedRows s).Nodup
        rw [hnone]
        exact hs.cancel_disjoint
  | matchCancel hc hm hfree => exact wellFormed_matchCancel hs hc hm hfree
  | finishCancel hc hm hf =>
      obtain ⟨task, task', hfin⟩ := finishCancel_ok hf
      exact wellFormed_finishCancel hs hc hm hfin
  | abandonCancel hc => exact hs.erase_cancel _

/-- Every reachable state is well formed. -/
theorem wellFormed_of_reachable {C : SystemState → SystemAction → Prop} {s : SystemState}
    (h : (jobSystem repo encode).Reachable C s) : WellFormed s :=
  h.invariant (fun _ hi => by cases hi; exact wellFormed_init)
    fun _ _ _ hs _ hstep => wellFormed_step hs hstep

end WheelForge.Jobs
