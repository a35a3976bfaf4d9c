import WheelForge.Jobs.Agreement

/-!
# A held lease can claim its subject

A worker that holds a lease claims the subject of the job once. The claim succeeds in every run in
which a running job is taken over only when its subject was claimed by the execution that the job row
records, and a build is requeued only when its task is unclaimed or claimed by the requeuing
execution (`subject_claim_succeeds`). A worker that crashes between `claim_next` and the claim of the
subject breaks the first condition: the next lease of the job is told that it reclaims a subject that
was never claimed, and fails the job (`subject_claim_fails_after_crash`).
-/

set_option autoImplicit false

namespace WheelForge.Jobs

open WheelForge.Transition
open WheelForge.Api

/-! ## Spec lemmas of the two claims -/

section Claims

variable {repo : JobRepository} {lease : JobLease} {now : DateTime} {db : Database} {j : BuildJob}

variable (repo) in
theorem claimParseSubject_ok (hj : Owned db lease now j) {f : RequirementFile}
    (hf : db.file? lease.subjectId = some f)
    (hst : f.parseStatus = JobRepository.expectedParseStatus lease)
    (hprev : lease.reclaimed = true → lease.previousExecutionId.isSome = true) :
    ∃ subject, repo.claimParseSubject lease now db = .ok (some subject, db.setFile f.claimed) := by
  have hguard : ¬ (f.parseStatus ≠ JobRepository.expectedParseStatus lease ∨
      (lease.reclaimed = true ∧ lease.previousExecutionId = none)) := by
    rintro (hne | ⟨hr, hn⟩)
    · exact hne hst
    · have hsome := hprev hr
      rw [hn] at hsome
      cases hsome
  have hupd : db.updateFile lease.subjectId
      (fun r => decide (r.versionNo = f.versionNo) &&
        decide (r.parseStatus = JobRepository.expectedParseStatus lease))
      RequirementFile.claimed = some (db.setFile f.claimed) :=
    Database.updateFile_eq_some_iff.2 ⟨f, hf, by simp [hst], rfl⟩
  unfold JobRepository.claimParseSubject
  rw [if_pos (owns_eq_true_iff.2 ⟨j, hj⟩), hf]
  dsimp only
  rw [if_neg hguard, hupd]
  exact ⟨_, rfl⟩

variable (repo) in
theorem claimBuildSubject_ok (hj : Owned db lease now j) {t : BuildTask} {f : RequirementFile}
    (ht : db.task? lease.subjectId = some t) (hf : db.file? t.requirementFileId = some f)
    (hb : JobRepository.validBinding t f = true)
    (hc : JobRepository.initialClaim lease t = true ∨ JobRepository.takeoverClaim lease t = true)
    (hdict : t.targetSnapshot.isDict = true)
    (hprofile : Json.eqString (t.targetSnapshot.get? "profileId") t.targetProfileId = true) :
    ∃ subject, repo.claimBuildSubject lease now db =
      .ok (some subject, db.setTask (t.claimed lease.executionId now)) := by
  have hguard : ¬ (!JobRepository.validBinding t f ||
      !(JobRepository.initialClaim lease t || JobRepository.takeoverClaim lease t)) = true := by
    rw [hb]
    rcases hc with hc | hc <;> simp [hc]
  have hexec : (if JobRepository.takeoverClaim lease t = true then
      decide (t.executionId = lease.previousExecutionId) else decide (t.executionId = none)) =
        true := by
    split
    · next h => exact decide_eq_true (takeoverClaim_iff.1 h).2.2.2
    · next h =>
      rcases hc with hc | hc
      · exact decide_eq_true (initialClaim_iff.1 hc).2.2
      · exact absurd hc h
  have hupd : db.updateTask lease.subjectId
      (fun r => decide (r.versionNo = t.versionNo) && decide (r.status = t.status) &&
        (if JobRepository.takeoverClaim lease t then
          decide (r.executionId = lease.previousExecutionId)
        else decide (r.executionId = none)))
      (fun r => r.claimed lease.executionId now) =
        some (db.setTask (t.claimed lease.executionId now)) :=
    Database.updateTask_eq_some_iff.2 ⟨t, ht, by simp only [decide_true, Bool.true_and, hexec], rfl⟩
  have hsnapshot : repo.snapshotOf t.targetSnapshot = some t.targetSnapshot := by
    cases hs : t.targetSnapshot with
    | string text => rw [hs] at hdict; cases hdict
    | _ => rfl
  have hcheck : ¬ (!t.targetSnapshot.isDict ||
      !Json.eqString (t.targetSnapshot.get? "profileId") t.targetProfileId) = true := by
    rw [hdict, hprofile]
    nofun
  unfold JobRepository.claimBuildSubject
  rw [if_pos (owns_eq_true_iff.2 ⟨j, hj⟩), ht]
  dsimp only
  rw [hf]
  dsimp only
  rw [if_neg hguard, hupd]
  dsimp only
  rw [hsnapshot]
  dsimp only
  rw [if_neg hcheck]
  exact ⟨_, rfl⟩

end Claims

/-! ## What the rows carry -/

/-- What every row carries from its creation on, and the claims on record. -/
structure Bound (s : SystemState) : Prop where
  file_key : ∀ k f, s.db.file? k = some f → f.normalizedObjectKey.isSome = true
  task_snapshot : ∀ k t, s.db.task? k = some t → t.targetSnapshot.isDict = true ∧
    Json.eqString (t.targetSnapshot.get? "profileId") t.targetProfileId = true
  task_file : ∀ k t, s.db.task? k = some t →
    ∃ f, s.db.file? t.requirementFileId = some f ∧ f.userId = t.userId
  task_claimed : ∀ k t x, s.db.task? k = some t → t.status.isTerminal = false →
    t.executionId = some x → x ∈ s.claimed
  lease_previous : ∀ l ∈ s.leases, l.reclaimed = true → l.previousExecutionId.isSome = true

theorem bound_init : Bound ⟨Database.empty, [], [], []⟩ where
  file_key k f h := by
    simp [Database.file?, Database.empty, Relational.Table.find?, Relational.Table.empty] at h
  task_snapshot k t h := by
    simp [Database.task?, Database.empty, Relational.Table.find?, Relational.Table.empty] at h
  task_file k t h := by
    simp [Database.task?, Database.empty, Relational.Table.find?, Relational.Table.empty] at h
  task_claimed k t x h := by
    simp [Database.task?, Database.empty, Relational.Table.find?, Relational.Table.empty] at h
  lease_previous l hl := absurd hl List.not_mem_nil

section Steps

variable {repo : JobRepository} {encode : WireEncoder} {s s' : SystemState}

theorem RequirementFile.terminalizedBy_key (jobType : JobType) (message : String)
    (f : RequirementFile) :
    (f.terminalizedBy jobType message).normalizedObjectKey = f.normalizedObjectKey := by
  unfold RequirementFile.terminalizedBy
  split <;> rfl

/-- No operation takes the normalized key from a file. -/
theorem LeaseEffect.file_key {lease : JobLease} {now : DateTime} {db : Database}
    {op : LeaseOperation} {e : Effect} (h : LeaseEffect repo lease now db op e)
    {f : RequirementFile} (hf : f.normalizedObjectKey.isSome = true) :
    (e.file f).normalizedObjectKey.isSome = true := by
  cases h with
  | keep | renew | complete | claimParse | claimBuild | cancel | advance | publish => exact hf
  | completeParse => rfl
  | fail | claimBuildMalformed =>
      exact (congrArg Option.isSome (RequirementFile.terminalizedBy_key _ _ f)).trans hf
  | requeue =>
      show (RequirementFile.resetBy lease f).normalizedObjectKey.isSome = true
      unfold RequirementFile.resetBy
      split <;> exact hf

/-- A task that is claimed after an operation was claimed before it, or by the operation. -/
theorem LeaseEffect.task_claimed {lease : JobLease} {now : DateTime} {db : Database}
    {op : LeaseOperation} {e : Effect} (h : LeaseEffect repo lease now db op e)
    (hu : usedByPipeline lease op = true) {t : BuildTask} {x : Uuid}
    (ht : db.task? lease.subjectId = some t) (hlive : (e.task t).status.isTerminal = false)
    (hx : (e.task t).executionId = some x) :
    (t.status.isTerminal = false ∧ t.executionId = some x) ∨
      (x = lease.executionId ∧ op = .claimBuildSubject ∧
        (JobRepository.initialClaim lease t = true ∨ JobRepository.takeoverClaim lease t = true) ∧
        ∃ f, db.file? t.requirementFileId = some f ∧ JobRepository.validBinding t f = true) := by
  have hdead : ∀ {P : Prop}, BuildStatus.isTerminal .failed = false → P := nofun
  cases h with
  | keep | renew | complete | claimParse | completeParse => exact Or.inl ⟨hlive, hx⟩
  | requeue =>
      change (BuildTask.resetBy lease t).status.isTerminal = false at hlive
      change (BuildTask.resetBy lease t).executionId = some x at hx
      unfold BuildTask.resetBy at hlive hx
      split at hx
      · cases hx
      · next hc =>
        rw [if_neg hc] at hlive
        exact Or.inl ⟨hlive, hx⟩
  | fail op code error message =>
      change (BuildTask.terminalizedBy lease.jobType code message now t).status.isTerminal = false
        at hlive
      change (BuildTask.terminalizedBy lease.jobType code message now t).executionId = some x at hx
      rw [BuildTask.terminalizedBy_execution] at hx
      unfold BuildTask.terminalizedBy at hlive
      split at hlive
      · exact hdead hlive
      · exact Or.inl ⟨hlive, hx⟩
  | claimBuild ht' hf hb hc =>
      rw [ht] at ht'
      cases ht'
      cases hx
      exact Or.inr ⟨rfl, rfl, hc, _, hf, hb⟩
  | claimBuildMalformed ht' hc code error message =>
      change (BuildTask.terminalizedBy lease.jobType code message now
        (t.claimed lease.executionId now)).status.isTerminal = false at hlive
      unfold BuildTask.terminalizedBy at hlive
      rw [if_pos ⟨of_decide_eq_true hu, rfl⟩] at hlive
      exact hdead hlive
  | cancel => cases hlive
  | advance ht' he hs =>
      rw [ht] at ht'
      cases ht'
      exact Or.inl ⟨hs, hx⟩
  | @publish artifactId published filename status expiresAt =>
      simp only [usedByPipeline, Bool.and_eq_true, decide_eq_true_eq] at hu
      change status.isTerminal = false at hlive
      rw [BuildStatus.isTerminal_of_isPublished hu.2] at hlive
      cases hlive

theorem Bound.of_applies (hs : Bound s) {target : JobLease} {row : BuildJob} {e : Effect}
    (happ : Applies target s.db s'.db row e)
    (hkey : ∀ f : RequirementFile, f.normalizedObjectKey.isSome = true →
      (e.file f).normalizedObjectKey.isSome = true)
    (hclaimed : ∀ x ∈ s.claimed, x ∈ s'.claimed)
    (htask : ∀ t x, s.db.task? target.subjectId = some t →
      (e.task t).status.isTerminal = false → (e.task t).executionId = some x → x ∈ s'.claimed)
    (hprev : ∀ l ∈ s'.leases, l.reclaimed = true → l.previousExecutionId.isSome = true) :
    Bound s' := by
  refine
    { file_key := fun k f hf => ?_
      task_snapshot := fun k t ht => ?_
      task_file := fun k t ht => ?_
      task_claimed := fun k t x ht hlive hx => ?_
      lease_previous := hprev }
  · rw [happ.file] at hf
    split at hf
    · obtain ⟨f₀, hf₀, rfl⟩ := Option.map_eq_some_iff.1 hf
      exact hkey f₀ (hs.file_key k f₀ hf₀)
    · exact hs.file_key k f hf
  · obtain ⟨t₀, ht₀, rfl⟩ := happ.task_backward ht
    split
    · rw [(e.task_same t₀).targetSnapshot, (e.task_same t₀).targetProfileId]
      exact hs.task_snapshot k t₀ ht₀
    · exact hs.task_snapshot k t₀ ht₀
  · obtain ⟨t₀, ht₀, rfl⟩ := happ.task_backward ht
    obtain ⟨f, hf, hu⟩ := hs.task_file k t₀ ht₀
    have hsame : t₀.Same (if k = target.subjectId then e.task t₀ else t₀) := by
      split
      · exact e.task_same t₀
      · exact BuildTask.Same.refl t₀
    rw [hsame.requirementFileId, hsame.userId]
    refine ⟨_, happ.file_forward hf, ?_⟩
    split
    · exact (e.file_same f).userId.trans hu
    · exact hu
  · obtain ⟨t₀, ht₀, rfl⟩ := happ.task_backward ht
    by_cases hk : k = target.subjectId
    · rw [if_pos hk] at hlive hx
      subst hk
      exact htask t₀ x ht₀ hlive hx
    · rw [if_neg hk] at hlive hx
      exact hclaimed x (hs.task_claimed k t₀ x ht₀ hlive hx)

/-- The claim that an effect stands for is on record afterwards. -/
theorem Bound.claimsSubject_build (hs : Bound s) {lease : JobLease} {now : DateTime}
    {row : BuildJob} (hrow : Owned s.db lease now row) {t : BuildTask}
    (ht : s.db.task? lease.subjectId = some t) {f : RequirementFile}
    (hf : s.db.file? t.requirementFileId = some f)
    (hb : JobRepository.validBinding t f = true)
    (hc : JobRepository.initialClaim lease t = true ∨ JobRepository.takeoverClaim lease t = true) :
    claimsSubject repo lease now .claimBuildSubject s.db = true := by
  obtain ⟨hdict, hprofile⟩ := hs.task_snapshot _ t ht
  obtain ⟨subject, hok⟩ := claimBuildSubject_ok repo hrow ht hf hb hc hdict hprofile
  dsimp only [claimsSubject]
  rw [hok]

theorem bound_request (hs : Bound s) (h : RequestEffect s.db s'.db) (hleases : s'.leases = s.leases)
    (hclaimed : s'.claimed = s.claimed) : Bound s' := by
  have hprev : ∀ l ∈ s'.leases, l.reclaimed = true → l.previousExecutionId.isSome = true := by
    rw [hleases]
    exact hs.lease_previous
  cases h with
  | build task payload jobId now file key hnew hfile howner hkey hsource htask hjob jobs tasks
      files artifacts =>
      have hcases : ∀ k t, s'.db.task? k = some t →
          s.db.task? k = some t ∨ t = task := by
        intro k t ht
        rw [tasks] at ht
        split at ht
        · cases ht
          exact Or.inr rfl
        · exact Or.inl ht
      refine
        { file_key := fun k f hf => hs.file_key k f ((files k).symm.trans hf)
          task_snapshot := fun k t ht => ?_
          task_file := fun k t ht => ?_
          task_claimed := fun k t x ht hlive hx => ?_
          lease_previous := hprev }
      · rcases hcases k t ht with ht | rfl
        · exact hs.task_snapshot k t ht
        · rcases hsource with ⟨-, hp, hd⟩ | ⟨t', ht', -, hsnap, hprof⟩
          · exact ⟨hd, hp⟩
          · rw [← hsnap, ← hprof]
            exact hs.task_snapshot _ t' ht'
      · rcases hcases k t ht with ht | rfl
        · obtain ⟨f, hf, hu⟩ := hs.task_file k t ht
          exact ⟨f, (files _).trans hf, hu⟩
        · exact ⟨file, (files _).trans hfile, howner⟩
      · rw [hclaimed]
        rcases hcases k t ht with ht | rfl
        · exact hs.task_claimed k t x ht hlive hx
        · obtain ⟨_, _, _, _, _, _, heq⟩ := hnew
          rw [heq] at hx
          cases hx
  | parse file payload jobId now hnew hkey hfile hjob jobs tasks files artifacts =>
      refine
        { file_key := fun k f hf => ?_
          task_snapshot := fun k t ht => hs.task_snapshot k t ((tasks k).symm.trans ht)
          task_file := fun k t ht => ?_
          task_claimed := fun k t x ht hlive hx => ?_
          lease_previous := hprev }
      · rw [files] at hf
        split at hf
        · cases hf
          exact hkey
        · exact hs.file_key k f hf
      · obtain ⟨f, hf, hu⟩ := hs.task_file k t ((tasks k).symm.trans ht)
        refine ⟨f, ?_, hu⟩
        rw [files, if_neg (by rintro heq; rw [heq, hfile] at hf; cases hf)]
        exact hf
      · rw [hclaimed]
        exact hs.task_claimed k t x ((tasks k).symm.trans ht) hlive hx
  | delete task now htask hd =>
      have hid : (softDelete task now).id = task.id := by unfold softDelete; split <;> rfl
      have hcases : ∀ k t, s'.db.task? k = some t → ∃ t₀, s.db.task? k = some t₀ ∧
          t.targetSnapshot = t₀.targetSnapshot ∧ t.targetProfileId = t₀.targetProfileId ∧
          t.requirementFileId = t₀.requirementFileId ∧ t.userId = t₀.userId ∧
          t.status = t₀.status ∧ t.executionId = t₀.executionId := by
        intro k t ht
        rw [hd, Database.task?_setTask, hid] at ht
        split at ht
        · next hk =>
          subst hk
          rw [htask] at ht
          cases ht
          refine ⟨task, htask, ?_⟩
          unfold softDelete
          split <;> exact ⟨rfl, rfl, rfl, rfl, rfl, rfl⟩
        · exact ⟨t, ht, rfl, rfl, rfl, rfl, rfl, rfl⟩
      have hfiles : ∀ k, s'.db.file? k = s.db.file? k := fun k => by rw [hd]; rfl
      refine
        { file_key := fun k f hf => hs.file_key k f ((hfiles k).symm.trans hf)
          task_snapshot := fun k t ht => ?_
          task_file := fun k t ht => ?_
          task_claimed := fun k t x ht hlive hx => ?_
          lease_previous := hprev }
      · obtain ⟨t₀, ht₀, hsnap, hprof, -⟩ := hcases k t ht
        rw [hsnap, hprof]
        exact hs.task_snapshot k t₀ ht₀
      · obtain ⟨t₀, ht₀, -, -, hfile, huser, -⟩ := hcases k t ht
        obtain ⟨f, hf, hu⟩ := hs.task_file k t₀ ht₀
        exact ⟨f, by rw [hfile, hfiles]; exact hf, hu.trans huser.symm⟩
      · obtain ⟨t₀, ht₀, -, -, -, -, hst, hexec⟩ := hcases k t ht
        rw [hclaimed]
        exact hs.task_claimed k t₀ x ht₀ (hst ▸ hlive) (hexec ▸ hx)

theorem bound_step {a : SystemAction} (hwf : WellFormed s) (hs : Bound s) (hu : PipelineUse s a)
    (h : StepEffect repo s s' a) : Bound s' := by
  cases h with
  | idle hdb hleases hclaimed =>
      refine
        { file_key := by rw [hdb]; exact hs.file_key
          task_snapshot := by rw [hdb]; exact hs.task_snapshot
          task_file := by rw [hdb]; exact hs.task_file
          task_claimed := by rw [hdb, hclaimed]; exact hs.task_claimed
          lease_previous := by rw [hleases]; exact hs.lease_previous }
  | exhausted hr happ hleases hclaimed =>
      refine hs.of_applies happ (fun f hf => ?_) (fun x hx => by rw [hclaimed]; exact hx)
        (fun t x ht hlive hx => ?_) (by rw [hleases]; exact hs.lease_previous)
      · exact (congrArg Option.isSome (RequirementFile.terminalizedBy_key _ _ f)).trans hf
      · rw [hclaimed]
        change (BuildTask.terminalizedBy _ _ _ _ t).status.isTerminal = false at hlive
        change (BuildTask.terminalizedBy _ _ _ _ t).executionId = some x at hx
        rw [BuildTask.terminalizedBy_execution] at hx
        unfold BuildTask.terminalizedBy at hlive
        split at hlive
        · cases hlive
        · exact hs.task_claimed _ t x ht hlive hx
  | @leased workerId executionId locked now row hr ha hfresh happ hleases hclaimed =>
      refine hs.of_applies happ (fun f hf => hf) (fun x hx => by rw [hclaimed]; exact hx)
        (fun t x ht hlive hx => ?_) (fun l hl hrec => ?_)
      · rw [hclaimed]
        exact hs.task_claimed _ t x ht hlive hx
      · rw [hleases] at hl
        rcases List.mem_append.1 hl with hl | hl
        · exact hs.lease_previous l hl hrec
        · rw [List.mem_singleton.1 hl] at hrec ⊢
          have hst : row.status = .running := of_decide_eq_true hrec
          obtain ⟨l₀, -, -, he⟩ := hwf.running_lease _ row hr.found hst
          show (if row.status = .running then row.executionId else none).isSome = true
          rw [if_pos hst, he]
          rfl
  | @operated lease now op row e hl hrow he happ hleases hclaimed =>
      have hmono : ∀ x ∈ s.claimed, x ∈ s'.claimed := by
        intro x hx
        rw [hclaimed]
        split
        · exact List.mem_cons_of_mem _ hx
        · exact hx
      refine hs.of_applies happ (fun f hf => he.file_key hf) hmono (fun t x ht hlive hx => ?_)
        (by rw [hleases]; exact hs.lease_previous)
      rcases he.task_claimed hu ht hlive hx with ⟨hlive, hx⟩ | ⟨rfl, rfl, hc, f, hf, hb⟩
      · exact hmono x (hs.task_claimed _ t x ht hlive hx)
      · rw [hclaimed, if_pos (hs.claimsSubject_build hrow ht hf hb hc)]
        exact List.mem_cons_self
  | requested h hleases hclaimed => exact bound_request hs h hleases hclaimed
  | @cancelled c matched task task' hc hm h hleases hclaimed =>
      have hcases : ∀ k t, s'.db.task? k = some t → ∃ t₀, s.db.task? k = some t₀ ∧
          t.targetSnapshot = t₀.targetSnapshot ∧ t.targetProfileId = t₀.targetProfileId ∧
          t.requirementFileId = t₀.requirementFileId ∧ t.userId = t₀.userId ∧
          (t.status.isTerminal = false → t₀.status.isTerminal = false) ∧
          t.executionId = t₀.executionId := by
        intro k t ht
        rw [h.task] at ht
        split at ht
        · next hk =>
          subst hk
          cases ht
          refine ⟨task, h.found, ?_⟩
          cases h.result with
          | terminal => exact ⟨rfl, rfl, rfl, rfl, id, rfl⟩
          | cancelled => exact ⟨rfl, rfl, rfl, rfl, nofun, rfl⟩
          | requested => exact ⟨rfl, rfl, rfl, rfl, id, rfl⟩
        · exact ⟨t, ht, rfl, rfl, rfl, rfl, id, rfl⟩
      refine
        { file_key := fun k f hf => hs.file_key k f ((h.file k).symm.trans hf)
          task_snapshot := fun k t ht => ?_
          task_file := fun k t ht => ?_
          task_claimed := fun k t x ht hlive hx => ?_
          lease_previous := by rw [hleases]; exact hs.lease_previous }
      · obtain ⟨t₀, ht₀, hsnap, hprof, -⟩ := hcases k t ht
        rw [hsnap, hprof]
        exact hs.task_snapshot k t₀ ht₀
      · obtain ⟨t₀, ht₀, -, -, hfile, huser, -⟩ := hcases k t ht
        obtain ⟨f, hf, hu⟩ := hs.task_file k t₀ ht₀
        exact ⟨f, by rw [hfile, h.file]; exact hf, hu.trans huser.symm⟩
      · obtain ⟨t₀, ht₀, -, -, -, -, hst, hexec⟩ := hcases k t ht
        rw [hclaimed]
        exact hs.task_claimed k t₀ x ht₀ (hst hlive) (hexec ▸ hx)

end Steps

/-! ## The handshake of parse jobs -/

/-- The subject of a job row was claimed by the execution that the row records. -/
def subjectClaimed (db : Database) (row : BuildJob) : Bool :=
  match row.jobType with
  | .build =>
      match db.task? row.subjectId with
      | some t => decide (t.executionId = row.executionId)
      | none => true
  | .requirementParse =>
      match db.file? row.subjectId with
      | some f => decide (f.parseStatus = .parsing)
      | none => true

/-- The condition on a step that a running job is taken over only when its subject was claimed. -/
def TakeoverOwn : SystemState → SystemAction → Prop
  | s, .claim _ _ locked now =>
      match (claimCandidate s.db locked now <|> expiredClaimCandidate s.db locked now) with
      | some row => row.status = .running → row.attempts < row.maxAttempts →
          subjectClaimed s.db row = true
      | none => True
  | _, _ => True

instance (db : Database) (found : Option BuildJob) : Decidable (
    match found with
    | some row => row.status = .running → row.attempts < row.maxAttempts →
        subjectClaimed db row = true
    | none => True) :=
  match found with
  | some row => inferInstanceAs (Decidable (row.status = .running →
      row.attempts < row.maxAttempts → subjectClaimed db row = true))
  | none => .isTrue trivial

instance (s : SystemState) : (a : SystemAction) → Decidable (TakeoverOwn s a)
  | .claim _ _ locked now => inferInstanceAs (Decidable (
      match (claimCandidate s.db locked now <|> expiredClaimCandidate s.db locked now) with
      | some row => row.status = .running → row.attempts < row.maxAttempts →
          subjectClaimed s.db row = true
      | none => True))
  | .operate _ _ _ | .request _ | .beginCancel _ _ _ | .matchCancel _ | .finishCancel _
  | .abandonCancel _ => .isTrue trivial

/-- The steps of the pipeline and the consumer that take over claimed subjects and requeue their own
task. -/
def ClaimedHandovers (s : SystemState) (a : SystemAction) : Prop :=
  OwnRequeues s a ∧ TakeoverOwn s a

instance (s : SystemState) (a : SystemAction) : Decidable (ClaimedHandovers s a) := by
  unfold ClaimedHandovers
  infer_instance

theorem subjectClaimed_of_takeover {s : SystemState} {workerId : String} {executionId : Uuid}
    {locked : Uuid → Bool} {now : DateTime} {row : BuildJob}
    (h : TakeoverOwn s (.claim workerId executionId locked now))
    (hr : Claimable s.db locked now row) (hst : row.status = .running)
    (ha : row.attempts < row.maxAttempts) : subjectClaimed s.db row = true := by
  dsimp only [TakeoverOwn] at h
  rw [hr.chosen] at h
  exact h hst ha

/-- The parse job `j` and its file: the file waits while the job is ready, and while the job runs its
lease finds the file as it expects it, unless it has claimed it. -/
structure ParseOk (s : SystemState) (j : BuildJob) (f : RequirementFile) : Prop where
  ready : j.status = .ready → f.parseStatus = .pending
  running : j.status = .running → ∀ l ∈ s.leases, j.executionId = some l.executionId →
    (f.parseStatus = .parsing ∨ f.parseStatus = .pending) ∧
      (l.executionId ∉ s.claimed → f.parseStatus = JobRepository.expectedParseStatus l)

def ParseHandshake (s : SystemState) : Prop :=
  ∀ k j f, s.db.job? k = some j → j.jobType = .requirementParse →
    s.db.file? j.subjectId = some f → ParseOk s j f

section ParseSteps

variable {repo : JobRepository} {encode : WireEncoder} {s s' : SystemState}

/-- A job that neither waits nor runs. -/
theorem ParseOk.of_done {j : BuildJob} {f : RequirementFile} (hr : j.status ≠ .ready)
    (hn : j.status ≠ .running) : ParseOk s j f :=
  ⟨fun h => absurd h hr, fun h => absurd h hn⟩

/-- A step that leaves status and execution of the job and the status of the file alone. -/
theorem ParseOk.frame (hwf : WellFormed s) (hwf' : WellFormed s') {k : Uuid} {j j' : BuildJob}
    {f : RequirementFile} (hj : s.db.job? k = some j) (h : ParseOk s j f)
    (hst : j'.status = j.status) (hx : j'.executionId = j.executionId)
    (hleases : ∀ l ∈ s.leases, l ∈ s'.leases) (hclaimed : ∀ x ∈ s.claimed, x ∈ s'.claimed) :
    ParseOk s' j' f := by
  refine ⟨fun hr => h.ready (hst.symm.trans hr), fun hr l hl he => ?_⟩
  have hrun := hst.symm.trans hr
  obtain ⟨l₀, hl₀, -, he₀⟩ := hwf.running_lease k j hj hrun
  have heq : l₀.executionId = l.executionId :=
    Option.some.inj (he₀.symm.trans (hx.symm.trans he))
  have hsame := List.inj_on_of_nodup_map hwf'.leases_distinct (hleases l₀ hl₀) hl heq
  subst hsame
  obtain ⟨hcase, hexp⟩ := h.running hrun l₀ hl₀ he₀
  exact ⟨hcase, fun hn => hexp fun hm => hn (hclaimed _ hm)⟩

/-- The other parse jobs through an effect. -/
theorem ParseHandshake.of_ne (hs : ParseHandshake s) (hwf : WellFormed s) (hwf' : WellFormed s')
    {target : JobLease} {row : BuildJob} {e : Effect} (happ : Applies target s.db s'.db row e)
    (hsub : row.subjectId = target.subjectId)
    (hfile : row.jobType = .requirementParse ∨ ∀ f, e.file f = f)
    (hleases : ∀ l ∈ s.leases, l ∈ s'.leases) (hclaimed : ∀ x ∈ s.claimed, x ∈ s'.claimed)
    {k : Uuid} {j : BuildJob} {f : RequirementFile} (hk : k ≠ target.id)
    (hj : s.db.job? k = some j) (hty : j.jobType = .requirementParse)
    (hf : s'.db.file? j.subjectId = some f) : ParseOk s' j f := by
  have hf₀ : s.db.file? j.subjectId = some f := by
    rw [happ.file] at hf
    rcases hfile with hrow | hid
    · rw [if_neg] at hf
      · exact hf
      · intro heq
        exact hk (hwf.subject_unique k target.id j row hj happ.found (hty.trans hrow.symm)
          (heq.trans hsub.symm))
    · rw [← Applies.map_lookup_self hid] at hf
      exact hf
  exact (hs k j f hj hty hf₀).frame hwf hwf' hj rfl rfl hleases hclaimed

theorem parseHandshake_operated (hwf : WellFormed s) (hwf' : WellFormed s') (hb : Bound s)
    (hs : ParseHandshake s) {lease : JobLease} {now : DateTime} {op : LeaseOperation}
    {row : BuildJob} {e : Effect} (hu : usedByPipeline lease op = true) (hl : lease ∈ s.leases)
    (hrow : Owned s.db lease now row) (he : LeaseEffect repo lease now s.db op e)
    (happ : Applies lease s.db s'.db row e) (hleases : s'.leases = s.leases)
    (hclaimed : s'.claimed =
      if claimsSubject repo lease now op s.db then lease.executionId :: s.claimed
      else s.claimed) : ParseHandshake s' := by
  obtain ⟨j₀, hj₀, hjty, hjsub, -⟩ := hwf.lease_job lease hl
  have hjrow := hj₀.symm.trans hrow.found
  cases hjrow
  have hkept : ∀ l ∈ s.leases, l ∈ s'.leases := fun l hl => by rw [hleases]; exact hl
  have hmono : ∀ x ∈ s.claimed, x ∈ s'.claimed := by
    intro x hx
    rw [hclaimed]
    split
    · exact List.mem_cons_of_mem _ hx
    · exact hx
  have hother : row.jobType = .requirementParse ∨ ∀ f, e.file f = f := by
    cases hty : lease.jobType with
    | build => exact Or.inr (he.of_build hu hty)
    | requirementParse => exact Or.inl (hjty.trans hty)
  intro k j' f' hj' hty' hf'
  rcases happ.job_cases hj' with ⟨hk, hj⟩ | ⟨rfl, rfl⟩
  · exact hs.of_ne hwf hwf' happ hjsub hother hkept hmono hk hj hty' hf'
  · have hparse : row.jobType = .requirementParse := (e.job_same row).jobType.symm.trans hty'
    have hlty : lease.jobType = .requirementParse := hjty.symm.trans hparse
    rw [(e.job_same row).subjectId, hjsub, happ.file, if_pos rfl] at hf'
    obtain ⟨f, hf, rfl⟩ := Option.map_eq_some_iff.1 hf'
    have hok := hs lease.id row f hj₀ hparse (by rw [hjsub]; exact hf)
    obtain ⟨hcase, hexp⟩ := hok.running hrow.running lease hl hrow.execution
    have hne : lease.jobType ≠ .build := by rw [hlty]; nofun
    cases he with
    | keep | renew => exact hok.frame hwf hwf' hj₀ rfl rfl hkept hmono
    | complete => cases hu
    | claimParse hf₀ hst =>
        rw [hf] at hf₀
        cases hf₀
        refine ⟨fun hr => absurd (hrow.running.symm.trans hr) nofun, fun _ l hl' hx => ?_⟩
        refine ⟨Or.inl rfl, fun hn => absurd ?_ hn⟩
        have heq : lease.executionId = l.executionId :=
          Option.some.inj (hrow.execution.symm.trans hx)
        obtain ⟨subject, hclaim⟩ := claimParseSubject_ok repo hrow hf hst (hb.lease_previous _ hl)
        have hyes : claimsSubject repo lease now .claimParseSubject s.db = true := by
          dsimp only [claimsSubject]
          rw [hclaim]
        rw [hclaimed, if_pos hyes, heq]
        exact List.mem_cons_self
    | completeParse | fail => exact .of_done nofun nofun
    | requeue =>
        refine ⟨fun _ => ?_, nofun⟩
        show (RequirementFile.resetBy lease f).parseStatus = .pending
        unfold RequirementFile.resetBy
        split
        · rfl
        · next hc =>
          rcases hcase with hp | hp
          · exact absurd ⟨hlty, hp⟩ hc
          · exact hp
    | claimBuild | claimBuildMalformed | cancel => exact absurd (of_decide_eq_true hu) hne
    | advance | publish =>
        simp only [usedByPipeline, Bool.and_eq_true, decide_eq_true_eq] at hu
        exact absurd hu.1 hne

theorem parseHandshake_leased (hwf : WellFormed s) (hwf' : WellFormed s') (hs : ParseHandshake s)
    {workerId : String} {executionId : Uuid} {locked : Uuid → Bool} {now : DateTime}
    {row : BuildJob} (hc : TakeoverOwn s (.claim workerId executionId locked now))
    (hr : Claimable s.db locked now row) (ha : row.attempts < row.maxAttempts)
    (happ : Applies (repo.leaseOf row workerId executionId) s.db s'.db row
      (Effect.keep.andJob fun j => j.leased workerId executionId now repo.leaseSeconds))
    (hleases : s'.leases = s.leases ++ [repo.leaseOf row workerId executionId])
    (hclaimed : s'.claimed = s.claimed) : ParseHandshake s' := by
  have hkept : ∀ l ∈ s.leases, l ∈ s'.leases := fun l hl => by
    rw [hleases]
    exact List.mem_append_left _ hl
  have hmem : repo.leaseOf row workerId executionId ∈ s'.leases := by
    rw [hleases]
    exact List.mem_append_right _ (List.mem_singleton_self _)
  intro k j' f' hj' hty' hf'
  rcases happ.job_cases hj' with ⟨hk, hj⟩ | ⟨rfl, rfl⟩
  · exact hs.of_ne hwf hwf' happ rfl (Or.inr fun _ => rfl) hkept
      (fun x hx => by rw [hclaimed]; exact hx) hk hj hty' hf'
  · have hparse : row.jobType = .requirementParse := hty'
    have hf : s.db.file? row.subjectId = some f' := by
      have hsame := happ.file row.subjectId
      rw [if_pos (show row.subjectId = (repo.leaseOf row workerId executionId).subjectId from rfl)]
        at hsame
      exact (hsame.trans (Option.map_id_apply)).symm.trans hf'
    have hok := hs row.id row f' hr.found hparse hf
    refine ⟨nofun, fun _ l hl hx => ?_⟩
    have heq : (repo.leaseOf row workerId executionId).executionId = l.executionId :=
      Option.some.inj hx
    have hsame := List.inj_on_of_nodup_map hwf'.leases_distinct hmem hl heq
    rw [← hsame]
    rcases hr.due with ⟨hst, -⟩ | ⟨hst, -⟩
    · have hpend := hok.ready hst
      refine ⟨Or.inr hpend, fun _ => hpend.trans ?_⟩
      unfold JobRepository.expectedParseStatus JobRepository.leaseOf
      rw [if_neg (by rw [decide_eq_true_eq, hst]; nofun)]
    · have hclaimed' := subjectClaimed_of_takeover hc hr hst ha
      unfold subjectClaimed at hclaimed'
      rw [hparse] at hclaimed'
      dsimp only at hclaimed'
      rw [hf] at hclaimed'
      have hpars : f'.parseStatus = .parsing := of_decide_eq_true hclaimed'
      refine ⟨Or.inl hpars, fun _ => hpars.trans ?_⟩
      unfold JobRepository.expectedParseStatus JobRepository.leaseOf
      rw [if_pos (decide_eq_true hst)]

theorem parseHandshake_step {a : SystemAction} (hwf : WellFormed s) (hwf' : WellFormed s')
    (hb : Bound s) (hs : ParseHandshake s) (hu : ClaimedHandovers s a)
    (h : StepEffect repo s s' a) : ParseHandshake s' := by
  cases h with
  | idle hdb hleases hclaimed =>
      intro k j f hj hty hf
      rw [hdb] at hj hf
      exact (hs k j f hj hty hf).frame hwf hwf' hj rfl rfl (fun l hl => by rw [hleases]; exact hl)
        (fun x hx => by rw [hclaimed]; exact hx)
  | @exhausted workerId executionId locked now row hr happ hleases hclaimed =>
      intro k j' f' hj' hty' hf'
      rcases happ.job_cases hj' with ⟨hk, hj⟩ | ⟨rfl, rfl⟩
      · refine hs.of_ne hwf hwf' happ rfl ?_ (fun l hl => by rw [hleases]; exact hl)
          (fun x hx => by rw [hclaimed]; exact hx) hk hj hty' hf'
        cases hty : row.jobType with
        | requirementParse => exact Or.inl rfl
        | build =>
            refine Or.inr fun f => ?_
            show RequirementFile.terminalizedBy .build exhaustedMessage f = f
            unfold RequirementFile.terminalizedBy
            exact if_neg fun h => absurd h.1 nofun
      · exact .of_done nofun nofun
  | leased hr ha hfresh happ hleases hclaimed =>
      exact parseHandshake_leased hwf hwf' hs hu.2 hr ha happ hleases hclaimed
  | operated hl hrow he happ hleases hclaimed =>
      exact parseHandshake_operated hwf hwf' hb hs hu.1.1 hl hrow he happ hleases hclaimed
  | requested h hleases hclaimed =>
      have hframe : ∀ k j f, s.db.job? k = some j → j.jobType = .requirementParse →
          s.db.file? j.subjectId = some f → ParseOk s' j f := fun k j f hj hty hf =>
        (hs k j f hj hty hf).frame hwf hwf' hj rfl rfl (fun l hl => by rw [hleases]; exact hl)
          (fun x hx => by rw [hclaimed]; exact hx)
      intro k j f hj hty hf
      cases h with
      | build task payload jobId now file key hnew hfile howner hkey hsource htask hjob jobs tasks
          files artifacts =>
          rw [jobs] at hj
          split at hj
          · cases hj
            cases hty
          · exact hframe k j f hj hty ((files _).symm.trans hf)
      | parse file payload jobId now hnew hkey hfile hjob jobs tasks files artifacts =>
          rw [jobs] at hj
          split at hj
          · cases hj
            have hf₁ := (files file.id).symm.trans hf
            rw [if_pos rfl] at hf₁
            cases hf₁
            exact ⟨fun _ => hnew, nofun⟩
          · obtain ⟨f₀, hf₀⟩ := hwf.parse_subject k j hj hty
            have hne : j.subjectId ≠ file.id := by
              intro heq
              rw [heq, hfile] at hf₀
              cases hf₀
            rw [files, if_neg hne] at hf
            exact hframe k j f hj hty hf
      | delete task now htask hd =>
          rw [hd] at hj hf
          exact hframe k j f hj hty hf
  | @cancelled c matched task task' hc hm h hleases hclaimed =>
      intro k j' f hj' hty hf
      rw [h.job] at hj'
      obtain ⟨j, hj, rfl⟩ := Option.map_eq_some_iff.1 hj'
      by_cases hk : k ∈ matched
      · obtain ⟨j₁, hj₁, -, hbuild, -⟩ := (hwf.cancel_matched c hc matched hm).2 k hk
        rw [hj] at hj₁
        cases hj₁
        rw [if_pos hk] at hty
        exact absurd (hbuild.symm.trans hty) nofun
      · rw [if_neg hk] at hty hf ⊢
        exact (hs k j f hj hty ((h.file _).symm.trans hf)).frame hwf hwf' hj rfl rfl
          (fun l hl => by rw [hleases]; exact hl) (fun x hx => by rw [hclaimed]; exact hx)

end ParseSteps

/-! ## Every held lease -/

section Runs

variable {repo : JobRepository} {encode : WireEncoder} {s : SystemState}

theorem handshake_of_run (h : (jobSystem repo encode).Reachable ClaimedHandovers s) :
    Bound s ∧ ParseHandshake s := by
  have key : WellFormed s ∧ Bound s ∧ ParseHandshake s := by
    refine h.invariant (P := fun s => WellFormed s ∧ Bound s ∧ ParseHandshake s) ?_ ?_
    · rintro _ rfl
      refine ⟨wellFormed_init, bound_init, fun k j f hj => ?_⟩
      simp [Database.job?, Database.empty, Relational.Table.find?, Relational.Table.empty] at hj
    · rintro s a s' ⟨hwf, hb, hp⟩ hc hstep
      have hwf' := wellFormed_step hwf hstep
      exact ⟨hwf', bound_step hwf hb hc.1.1 hstep.effect,
        parseHandshake_step hwf hwf' hb hp hc hstep.effect⟩
  exact key.2

/-- The conditions on a step, for the view of a build. -/
theorem handovers_view {a : SystemAction} {b : BuildAction} {k : Uuid} (hs : WellFormed s)
    (hc : ClaimedHandovers s a) (hcause : BuildCause s a k b) :
    TakeoverClaimed (buildView s k) b ∧ RequeueClaimed (buildView s k) b := by
  refine ⟨?_, requeueClaimed_of_own hs hc.1 hcause⟩
  cases b with
  | lease l =>
      obtain ⟨workerId, executionId, locked, now, row, rfl, hr, rfl, hlt⟩ := hcause
      cases hv : buildView s row.id with
      | none => trivial
      | some v =>
          intro hst
          obtain ⟨j, t, hj, hty, ht, rfl⟩ := buildView_rows hv
          have hjrow := hj.symm.trans hr.found
          cases hjrow
          have hrun : row.status = .running := hst
          have hclaimed := subjectClaimed_of_takeover hc.2 hr hrun hlt
          unfold subjectClaimed at hclaimed
          rw [hty] at hclaimed
          dsimp only at hclaimed
          rw [ht] at hclaimed
          have hx : t.executionId = row.executionId := of_decide_eq_true hclaimed
          obtain ⟨l₀, hl₀, -, he⟩ := hs.running_lease _ row hj hrun
          show t.executionId = (s.holder row).map JobLease.executionId
          rw [holder_eq_some hs hl₀ hrun he, hx, he]
          rfl
  | _ => cases buildView s k <;> trivial

/-- In the runs in which running jobs are taken over only with a claimed subject and builds are
requeued only with their own task, a held lease that has not claimed its subject can claim it: a
file, or a task that is not deleted and whose file is parsed. The job keeps running under the
lease. -/
theorem subject_claim_succeeds {lease : JobLease} {now : DateTime}
    (hreach : (jobSystem repo encode).Reachable ClaimedHandovers s) (hl : lease ∈ s.leases)
    (hown : owns s.db lease now = true) (hfresh : lease.executionId ∉ s.claimed) :
    (lease.jobType = .requirementParse →
      ∃ subject db', repo.claimParseSubject lease now s.db = .ok (some subject, db') ∧
        db'.job? lease.id = s.db.job? lease.id) ∧
    (lease.jobType = .build →
      ∀ t f, s.db.task? lease.subjectId = some t → t.deletedAt = none →
        s.db.file? t.requirementFileId = some f → f.parseStatus = .parsed →
        ∃ subject db', repo.claimBuildSubject lease now s.db = .ok (some subject, db') ∧
          db'.job? lease.id = s.db.job? lease.id) := by
  have hwf := wellFormed_of_reachable hreach
  obtain ⟨hb, hp⟩ := handshake_of_run hreach
  obtain ⟨row, hrow⟩ := owns_eq_true_iff.1 hown
  obtain ⟨j, hj, hjty, hjsub, -⟩ := hwf.lease_job lease hl
  have hjrow := hj.symm.trans hrow.found
  cases hjrow
  constructor
  · intro hty
    have hparse := hjty.trans hty
    obtain ⟨f, hf⟩ := hwf.parse_subject lease.id row hj hparse
    obtain ⟨-, hexp⟩ := (hp lease.id row f hj hparse hf).running hrow.running lease hl hrow.execution
    rw [hjsub] at hf
    obtain ⟨subject, hok⟩ := claimParseSubject_ok repo hrow hf (hexp hfresh) (hb.lease_previous _ hl)
    exact ⟨subject, _, hok, rfl⟩
  · intro hty t f ht hdel hf hparsed
    have hbuild := hjty.trans hty
    have htrow : s.db.task? row.subjectId = some t := by rw [hjsub]; exact ht
    have hview : buildProtocol.Reachable (fun o b => TakeoverClaimed o b ∧ RequeueClaimed o b)
        (buildView s lease.id) :=
      buildView_reachable (fun _ _ h => h.1.1) (fun _ _ _ hwf hc hcause =>
        handovers_view hwf hc hcause) hreach
    rw [buildView_eq hj hbuild htrow] at hview
    have hv := handshake_of_reachable (fun _ _ h => h) hview
    obtain ⟨hlive, -⟩ := hv.coherent.consistent.running hrow.running
    obtain ⟨l, hl', hcase⟩ := hv.running hrow.running
    have hholder := holder_eq_some hwf hl hrow.running hrow.execution
    have hll : lease = l := Option.some.inj (hholder.symm.trans hl')
    subst hll
    have hclaim : JobRepository.initialClaim lease t = true ∨
        JobRepository.takeoverClaim lease t = true := by
      rcases hcase with hx | hg | hg
      · exact absurd (hb.task_claimed _ t _ ht
          (BuildStatus.not_isTerminal_of_isNonterminal hlive) hx) hfresh
      · exact Or.inl (initialClaim_iff.2 hg)
      · exact Or.inr (takeoverClaim_iff.2 hg)
    obtain ⟨hdict, hprofile⟩ := hb.task_snapshot _ t ht
    obtain ⟨f', hf', huser⟩ := hb.task_file _ t ht
    rw [hf] at hf'
    cases hf'
    have hbind : JobRepository.validBinding t f = true := by
      unfold JobRepository.validBinding
      simp [hdel, hparsed, hb.file_key _ f hf, huser, hdict]
    obtain ⟨subject, hok⟩ := claimBuildSubject_ok repo hrow ht hf hbind hclaim hdict hprofile
    exact ⟨subject, _, hok, rfl⟩

end Runs

/-- A build whose execution has crashed after it claimed the task, and the takeover of its job. -/
def claimedTakeoverActions : List SystemAction :=
  createdActions ++
    [.claim "w" "e1" (fun _ => false) 50,
      .operate (sampleLease "b" .build "t" "e1" 1 none) 60 .claimBuildSubject,
      .claim "w" "e2" (fun _ => false) 100000000]

theorem subject_claim_succeeds_takeover :
    ∃ subject db', sampleRepository.claimBuildSubject
      (sampleLease "b" .build "t" "e2" 2 (some "e1")) 100000010
      (sampleState claimedTakeoverActions).db = .ok (some subject, db') ∧
      db'.job? "b" = (sampleState claimedTakeoverActions).db.job? "b" := by
  have ht : ∃ t, (sampleState claimedTakeoverActions).db.task? "t" = some t ∧
      t.deletedAt = none ∧ t.requirementFileId = "f" := ⟨_, rfl, rfl, rfl⟩
  have hf : ∃ f, (sampleState claimedTakeoverActions).db.file? "f" = some f ∧
      f.parseStatus = .parsed := ⟨_, rfl, rfl⟩
  obtain ⟨t, ht, hdel, hfile⟩ := ht
  obtain ⟨f, hf, hparsed⟩ := hf
  exact (subject_claim_succeeds
    (sampleState_reachable ClaimedHandovers (by decide +kernel)) (by decide +kernel)
    (by decide +kernel) (by decide +kernel)).2 rfl t f ht hdel (by rw [hfile]; exact hf) hparsed

/-! ## A crash before the subject claim -/

/-- A worker leases a parse job and crashes before it claims the file; its lease expires and the job
is leased again. -/
def crashActions : List SystemAction :=
  [.request (.upload "u" "f" "p" "requirements.txt" 3 "digest" 0),
    .claim "w" "e0" (fun _ => false) 10,
    .claim "w" "e1" (fun _ => false) 100000000]

/-- The second lease is held and its file is untouched, and its claim of the file fails and fails
the job and the file. -/
theorem subject_claim_fails_after_crash :
    (jobSystem sampleRepository sampleEncoder).Reachable PipelineUse (sampleState crashActions) ∧
      sampleLease "p" .requirementParse "f" "e1" 2 (some "e0") ∈
        (sampleState crashActions).leases ∧
      owns (sampleState crashActions).db (sampleLease "p" .requirementParse "f" "e1" 2 (some "e0"))
        100000010 = true ∧
      (∃ f, (sampleState crashActions).db.file? "f" = some f ∧ f.parseStatus = .pending) ∧
      ∃ db', sampleRepository.claimParseSubject
          (sampleLease "p" .requirementParse "f" "e1" 2 (some "e0")) 100000010
          (sampleState crashActions).db = .ok (none, db') ∧
        (∃ j, db'.job? "p" = some j ∧ j.status = .failed) ∧
        ∃ f, db'.file? "f" = some f ∧ f.parseStatus = .failed := by
  refine ⟨sampleState_reachable PipelineUse (by decide +kernel), by decide +kernel,
    by decide +kernel, ⟨_, rfl, rfl⟩, _, rfl, ⟨_, rfl, rfl⟩, ⟨_, rfl, rfl⟩⟩

end WheelForge.Jobs
