import WheelForge.Jobs.BuildSimulation
import WheelForge.Jobs.LeaseAnswers
import WheelForge.Jobs.PackageRows

/-!
# A job that runs under a lease

What the rows say as long as a job row runs under the execution of a lease: the row carries the
lease (`running_row`), and once the execution has claimed the subject, the subject stays its own
(`subjectHeld_step`), a requested cancellation stays requested (`cancelFlag_step`) and the rows of
the resolved packages are touched by nobody else (`packageCount_step`).
-/

set_option autoImplicit false

namespace WheelForge.Jobs

open WheelForge.Relational
open WheelForge.Transition
open WheelForge.Api

/-- The execution has claimed the subject, and the subject is its own. -/
def SubjectHeld (lease : JobLease) (db : Database) : Prop :=
  match lease.jobType with
  | .build => ∃ t, db.task? lease.subjectId = some t ∧
      t.executionId = some lease.executionId ∧ t.status.isNonterminal = true
  | .requirementParse => ∃ f, db.file? lease.subjectId = some f ∧ f.parseStatus = .parsing

/-- A cancellation of the task of the lease is requested. -/
def cancelFlag (lease : JobLease) (db : Database) : Bool :=
  match db.task? lease.subjectId with
  | some t => t.cancelRequested
  | none => false

section Steps

variable {repo : JobRepository} {encode : WireEncoder} {s s' : SystemState} {lease : JobLease}
  {a : SystemAction}

/-- A job row does not begin to run under an old lease. -/
theorem runsUnder_step (h : SystemStep repo encode s a s') (hl : lease ∈ s.leases)
    (hr : runsUnder lease s'.db = true) : runsUnder lease s.db = true := by
  obtain ⟨j', hj', hrun, he⟩ := runsUnder_iff.1 hr
  rcases running_step h hj' hrun with ⟨j, hj, hrj, heq⟩ | ⟨e, heq, hfresh⟩
  · exact runsUnder_iff.2 ⟨j, hj, hrj, heq.symm.trans he⟩
  · rw [heq] at he
    cases he
    exact absurd (List.mem_map.2 ⟨lease, hl, rfl⟩) hfresh

/-- The job row of a lease under which it runs is the row of the lease's job. -/
theorem WellFormed.running_same (hs : WellFormed s) (hl : lease ∈ s.leases) {l : JobLease}
    (hm : l ∈ s.leases) {now : DateTime} {row : BuildJob} (hrow : Owned s.db l now row)
    (hr : runsUnder lease s.db = true) (hid : l.id = lease.id) : l = lease := by
  obtain ⟨j, hj, -, he⟩ := runsUnder_iff.1 hr
  rw [← hid, hrow.found] at hj
  cases hj
  have heq : l.executionId = lease.executionId :=
    Option.some.inj (hrow.execution.symm.trans he)
  exact List.inj_on_of_nodup_map hs.leases_distinct hm hl heq

/-- Two jobs of one type and one subject are one job. -/
theorem WellFormed.lease_unique (hs : WellFormed s) (hl : lease ∈ s.leases) {k : Uuid}
    {j : BuildJob} (hj : s.db.job? k = some j) (hty : j.jobType = lease.jobType)
    (hsub : j.subjectId = lease.subjectId) : k = lease.id := by
  obtain ⟨j₀, hj₀, hty₀, hsub₀, -⟩ := hs.lease_job lease hl
  exact hs.subject_unique k lease.id j j₀ hj hj₀ (hty.trans hty₀.symm) (hsub.trans hsub₀.symm)

/-! ### The row of a running job -/

/-- The columns of a running row that the ownership test reads. -/
theorem LeaseEffect.lease_columns {now : DateTime} {db : Database} {op : LeaseOperation}
    {e : Effect} (h : LeaseEffect repo lease now db op e) {j : BuildJob}
    (hr : (e.job j).status = .running) (hx : j.leaseExpiresAt.isSome = true) :
    (e.job j).leaseOwner = j.leaseOwner ∧ (e.job j).leaseExpiresAt.isSome = true := by
  cases h with
  | keep | claimParse | claimBuild => exact ⟨rfl, hx⟩
  | renew | advance => exact ⟨rfl, rfl⟩
  | complete | requeue | fail | completeParse | claimBuildMalformed | cancel | publish => cases hr

/-- Every running row carries the lease under which it runs. -/
def RowsLeased (s : SystemState) : Prop :=
  ∀ k j, s.db.job? k = some j → j.status = .running → ∃ l ∈ s.leases, l.id = k ∧
    j.executionId = some l.executionId ∧ j.leaseOwner = some l.workerId ∧
      j.leaseExpiresAt.isSome = true

theorem rowsLeased_step (hs : RowsLeased s) (h : SystemStep repo encode s a s') :
    RowsLeased s' := by
  have hold : ∀ l ∈ s.leases, l ∈ s'.leases := fun l hl => leases_step h hl
  have hcarry : ∀ k j, s.db.job? k = some j → j.status = .running → ∃ l ∈ s'.leases, l.id = k ∧
      j.executionId = some l.executionId ∧ j.leaseOwner = some l.workerId ∧
        j.leaseExpiresAt.isSome = true := by
    intro k j hj hr
    obtain ⟨l, hl, hrest⟩ := hs k j hj hr
    exact ⟨l, hold l hl, hrest⟩
  intro k j' hj' hr
  cases h.effect with
  | idle hdb =>
      rw [hdb] at hj'
      exact hcarry k j' hj' hr
  | exhausted hrow happ =>
      rcases happ.job_cases hj' with ⟨-, hj⟩ | ⟨-, rfl⟩
      · exact hcarry k j' hj hr
      · cases hr
  | @leased workerId executionId locked now row hrow ha hfresh happ hleases =>
      rcases happ.job_cases hj' with ⟨-, hj⟩ | ⟨rfl, rfl⟩
      · exact hcarry k j' hj hr
      · refine ⟨repo.leaseOf row workerId executionId, ?_, rfl, rfl, rfl, rfl⟩
        rw [hleases]
        exact List.mem_append_right _ (List.mem_singleton.2 rfl)
  | @operated l now op row e hl hrow he happ =>
      rcases happ.job_cases hj' with ⟨-, hj⟩ | ⟨rfl, rfl⟩
      · exact hcarry k j' hj hr
      · obtain ⟨hrun, hexec⟩ := he.job_running hr
        obtain ⟨l', hl', hid, hx, ho, hexp⟩ := hcarry _ row hrow.found hrun
        obtain ⟨howner, hsome⟩ := he.lease_columns hr hexp
        exact ⟨l', hl', hid, hexec.trans hx, howner.trans ho, hsome⟩
  | requested hreq =>
      cases hreq with
      | build task payload jobId now file key hnew hfile howner hkey hsource htask hjob jobs =>
          have hj := (jobs k).symm.trans hj'
          split at hj
          · cases hj
            cases hr
          · exact hcarry k j' hj hr
      | parse file payload jobId now hnew hkey hfile hjob jobs =>
          have hj := (jobs k).symm.trans hj'
          split at hj
          · cases hj
            cases hr
          · exact hcarry k j' hj hr
      | delete task now htask hd =>
          rw [hd] at hj'
          exact hcarry k j' hj' hr
  | cancelled hc hm hfin =>
      have hj := (hfin.job k).symm.trans hj'
      obtain ⟨j, hjs, rfl⟩ := Option.map_eq_some_iff.1 hj
      split at hr
      · cases hr
      · next hk =>
        rw [if_neg hk]
        exact hcarry k j hjs hr

theorem rowsLeased_of_reachable {C : SystemState → SystemAction → Prop}
    (h : (jobSystem repo encode).Reachable C s) : RowsLeased s := by
  refine h.invariant ?_ fun t a t' ht _ hstep => rowsLeased_step ht hstep
  rintro s rfl k j hj
  simp [Database.job?, Database.empty, Table.find?, Table.empty] at hj

/-- A job row that runs under a lease carries the lease. -/
theorem running_row {C : SystemState → SystemAction → Prop}
    (h : (jobSystem repo encode).Reachable C s) (hl : lease ∈ s.leases)
    (hr : runsUnder lease s.db = true) :
    ∃ j, s.db.job? lease.id = some j ∧ j.status = .running ∧
      j.executionId = some lease.executionId ∧ j.leaseOwner = some lease.workerId ∧
        ∃ expires, j.leaseExpiresAt = some expires := by
  obtain ⟨j, hj, hrun, he⟩ := runsUnder_iff.1 hr
  obtain ⟨l, hm, -, hx, ho, hexp⟩ := rowsLeased_of_reachable h _ j hj hrun
  have hsame : l = lease :=
    List.inj_on_of_nodup_map (wellFormed_of_reachable h).leases_distinct hm hl
      (Option.some.inj (hx.symm.trans he))
  subst hsame
  exact ⟨j, hj, hrun, he, ho, Option.isSome_iff_exists.1 hexp⟩

/-! ### The subject of a running job -/

/-- The view of a running build. -/
theorem running_view (hs : WellFormed s) (hl : lease ∈ s.leases) (hty : lease.jobType = .build)
    (hr : runsUnder lease s.db = true) {t : BuildTask}
    (ht : s.db.task? lease.subjectId = some t) :
    ∃ v, buildView s lease.id = some v ∧ v.jobStatus = .running ∧ v.holder = some lease ∧
      v.taskExecution = t.executionId ∧ v.taskStatus = t.status ∧
        v.cancelRequested = t.cancelRequested := by
  obtain ⟨j, hj, hrun, he⟩ := runsUnder_iff.1 hr
  obtain ⟨j₀, hj₀, hty₀, hsub₀, -⟩ := hs.lease_job lease hl
  rw [hj] at hj₀
  cases hj₀
  rw [← hsub₀] at ht
  refine ⟨_, buildView_eq hj (hty₀.trans hty) ht, hrun, ?_, rfl, rfl, rfl⟩
  exact holder_eq_some hs hl hrun he

/-- A step of a build that runs under one lease before and after it. -/
theorem BuildStep.running {v w : BuildView} {b : BuildAction} (h : BuildStep v b w)
    (hv : v.jobStatus = .running) (hh : v.holder = some lease) (hw : w.holder = some lease)
    (hx : v.taskExecution = some lease.executionId) (hn : v.taskStatus.isNonterminal = true) :
    w.taskExecution = some lease.executionId ∧ w.taskStatus.isNonterminal = true ∧
      (v.cancelRequested = true → w.cancelRequested = true) := by
  cases h with
  | lease hs hfresh =>
      cases hw
      exact absurd hx hfresh
  | exhaust | requeue | fail | refuseClaim | honourCancel | publish => cases hw
  | claim hs hl hg hd =>
      rw [hh] at hl
      cases hl
      exact ⟨rfl, rfl, fun h => h⟩
  | advance hs hl he ht hstage =>
      exact ⟨hx, isNonterminal_of_isStage hstage, fun h => h⟩
  | requestCancel ht => exact ⟨hx, hn, fun _ => rfl⟩
  | cancelReady hs =>
      rw [hv] at hs
      cases hs
  | delete => exact ⟨hx, hn, fun h => h⟩

/-- What a step leaves of a task whose build runs under the lease before and after it. -/
theorem buildHeld_step (hs : WellFormed s) (h : SystemStep repo encode s a s')
    (hu : PipelineUse s a) (hl : lease ∈ s.leases) (hty : lease.jobType = .build)
    (hr : runsUnder lease s'.db = true) {t : BuildTask}
    (ht : s.db.task? lease.subjectId = some t) (hx : t.executionId = some lease.executionId)
    (hn : t.status.isNonterminal = true) :
    ∃ t', s'.db.task? lease.subjectId = some t' ∧ t'.executionId = some lease.executionId ∧
      t'.status.isNonterminal = true ∧ (t.cancelRequested = true → t'.cancelRequested = true) := by
  have hs' := wellFormed_step hs h
  have hl' := leases_step h hl
  obtain ⟨j', hj', hty', hsub', -⟩ := hs'.lease_job lease hl'
  obtain ⟨t', ht'⟩ := hs'.build_subject _ j' hj' (hty'.trans hty)
  rw [hsub'] at ht'
  obtain ⟨v, hv, hvr, hvh, hvx, hvs, hvc⟩ := running_view hs hl hty (runsUnder_step h hl hr) ht
  obtain ⟨w, hw, hwr, hwh, hwx, hws, hwc⟩ := running_view hs' hl' hty hr ht'
  rcases buildView_step hs hu h lease.id with heq | ⟨b, -, hstep⟩
  · rw [hv, hw] at heq
    cases heq
    refine ⟨t', ht', ?_, ?_, ?_⟩
    · rw [← hwx, hvx, hx]
    · rw [← hws, hvs, hn]
    · intro hc
      rw [← hwc, hvc, hc]
  · rw [hv, hw] at hstep
    rcases hstep with ⟨id, hnone, -⟩ | ⟨v', w', hv', hw', hb⟩
    · cases hnone
    · cases hv'
      cases hw'
      obtain ⟨h₁, h₂, h₃⟩ := hb.running hvr hvh hwh (hvx.trans hx) (by rw [hvs]; exact hn)
      refine ⟨t', ht', hwx.symm.trans h₁, ?_, ?_⟩
      · rw [← hws]
        exact h₂
      · intro hc
        rw [← hwc]
        exact h₃ (hvc.trans hc)

/-- What an operation leaves of the file of a parse lease that still runs. -/
theorem LeaseEffect.file_parsing {now : DateTime} {db : Database} {op : LeaseOperation}
    {e : Effect} (h : LeaseEffect repo lease now db op e) {j : BuildJob}
    (hr : (e.job j).status = .running) {f : RequirementFile} (hf : f.parseStatus = .parsing) :
    (e.file f).parseStatus = .parsing := by
  cases h with
  | keep | renew | claimBuild | advance => exact hf
  | claimParse => rfl
  | complete | requeue | fail | completeParse | claimBuildMalformed | cancel | publish => cases hr

/-- What a step leaves of a file whose parse runs under the lease before and after it. -/
theorem parseHeld_step (hs : WellFormed s) (h : SystemStep repo encode s a s')
    (hu : PipelineUse s a) (hl : lease ∈ s.leases) (hty : lease.jobType = .requirementParse)
    (hr : runsUnder lease s'.db = true) {f : RequirementFile}
    (hf : s.db.file? lease.subjectId = some f) (hp : f.parseStatus = .parsing) :
    ∃ f', s'.db.file? lease.subjectId = some f' ∧ f'.parseStatus = .parsing := by
  have hr₀ := runsUnder_step h hl hr
  cases h.effect with
  | idle hdb =>
      rw [hdb]
      exact ⟨f, hf, hp⟩
  | @exhausted workerId executionId locked now row hrow happ =>
      by_cases hsub : lease.subjectId = (repo.leaseOf row workerId executionId).subjectId
      · cases hrt : row.jobType with
        | build =>
            refine ⟨_, happ.file_forward hf, ?_⟩
            rw [if_pos hsub]
            show (RequirementFile.terminalizedBy row.jobType exhaustedMessage f).parseStatus = _
            unfold RequirementFile.terminalizedBy
            rw [if_neg (by rw [hrt]; exact fun hc => nomatch hc.1)]
            exact hp
        | requirementParse =>
            -- the exhausted job is the job of the lease, which no longer runs
            have hk : row.id = lease.id := hs.lease_unique hl happ.found
              (hrt.trans hty.symm) hsub.symm
            obtain ⟨j', hj', hrun, -⟩ := runsUnder_iff.1 hr
            rw [← hk] at hj'
            have hself := happ.job?_self
            rw [show (repo.leaseOf row workerId executionId).id = row.id from rfl, hj'] at hself
            cases hself
            cases hrun
      · refine ⟨f, ?_, hp⟩
        rw [happ.file, if_neg hsub]
        exact hf
  | leased hrow ha hfresh happ =>
      refine ⟨f, ?_, hp⟩
      rw [happ.file_forward hf]
      split <;> rfl
  | @operated l now op row e hm hrow he happ =>
      by_cases hsub : lease.subjectId = l.subjectId
      · obtain ⟨j₀, hj₀, hty₀, hsub₀, -⟩ := hs.lease_job l hm
        cases hlt : l.jobType with
        | build =>
            refine ⟨_, happ.file_forward hf, ?_⟩
            rw [if_pos hsub, he.of_build hu hlt]
            exact hp
        | requirementParse =>
            have hk : l.id = lease.id := hs.lease_unique hl hj₀
              (hty₀.trans (hlt.trans hty.symm)) (hsub₀.trans hsub.symm)
            have hsame := hs.running_same hl hm hrow hr₀ hk
            subst hsame
            obtain ⟨j', hj', hrun, -⟩ := runsUnder_iff.1 hr
            rw [happ.job?_self] at hj'
            cases hj'
            refine ⟨_, happ.file_forward hf, ?_⟩
            rw [if_pos rfl]
            exact he.file_parsing hrun hp
      · refine ⟨f, ?_, hp⟩
        rw [happ.file, if_neg hsub]
        exact hf
  | requested hreq =>
      cases hreq with
      | build task payload jobId now file key hnew hfile howner hkey hsource htask hjob jobs tasks
          files =>
          exact ⟨f, (files _).trans hf, hp⟩
      | parse file payload jobId now hnew hkey hfile hjob jobs tasks files =>
          refine ⟨f, ?_, hp⟩
          rw [files, if_neg]
          · exact hf
          · intro hk
            rw [hk, hfile] at hf
            cases hf
      | delete task now htask hd =>
          rw [hd]
          exact ⟨f, hf, hp⟩
  | cancelled hc hm hfin => exact ⟨f, (hfin.file _).trans hf, hp⟩

/-- The subject of an execution stays its own while the job runs under its lease. -/
theorem subjectHeld_step (hs : WellFormed s) (h : SystemStep repo encode s a s')
    (hu : PipelineUse s a) (hl : lease ∈ s.leases) (hr : runsUnder lease s'.db = true)
    (hsub : SubjectHeld lease s.db) : SubjectHeld lease s'.db := by
  unfold SubjectHeld at hsub ⊢
  cases hty : lease.jobType with
  | build =>
      rw [hty] at hsub
      obtain ⟨t, ht, hx, hn⟩ := hsub
      obtain ⟨t', ht', hx', hn', -⟩ := buildHeld_step hs h hu hl hty hr ht hx hn
      exact ⟨t', ht', hx', hn'⟩
  | requirementParse =>
      rw [hty] at hsub
      obtain ⟨f, hf, hp⟩ := hsub
      exact parseHeld_step hs h hu hl hty hr hf hp

/-- A requested cancellation stays requested while the job runs under the lease. -/
theorem cancelFlag_step (hs : WellFormed s) (h : SystemStep repo encode s a s')
    (hu : PipelineUse s a) (hl : lease ∈ s.leases) (hty : lease.jobType = .build)
    (hr : runsUnder lease s'.db = true) (hsub : SubjectHeld lease s.db)
    (hc : cancelFlag lease s.db = true) : cancelFlag lease s'.db = true := by
  unfold SubjectHeld at hsub
  rw [hty] at hsub
  obtain ⟨t, ht, hx, hn⟩ := hsub
  obtain ⟨t', ht', -, -, hcancel⟩ := buildHeld_step hs h hu hl hty hr ht hx hn
  unfold cancelFlag at hc ⊢
  rw [ht] at hc
  rw [ht']
  exact hcancel hc

/-- Nobody else writes the package rows of a task whose build runs under the lease. -/
theorem packageCount_step (hs : WellFormed s) (h : SystemStep repo encode s a s')
    (hu : PipelineUse s a) (hl : lease ∈ s.leases) (hty : lease.jobType = .build)
    (hr : runsUnder lease s'.db = true)
    (hown : ∀ now op, a = .operate lease now op → op.writesPackages = false) (name : String) :
    s'.db.packageCount lease.subjectId name = s.db.packageCount lease.subjectId name := by
  have hr₀ := runsUnder_step h hl hr
  refine h.packageCount (fun l now op ha hw hsub => ?_) name
  cases ho : owns s.db l now with
  | false => rfl
  | true =>
      exfalso
      subst ha
      obtain ⟨row, hrow⟩ := owns_eq_true_iff.1 ho
      have hm : l ∈ s.leases := by
        cases h with
        | operate hm => exact hm
      have hlt : l.jobType = .build := by
        cases op with
        | persistResolution | persistPackageResults => exact of_decide_eq_true hu
        | _ => cases hw
      obtain ⟨j₀, hj₀, hty₀, hsub₀, -⟩ := hs.lease_job l hm
      have hk : l.id = lease.id := hs.lease_unique hl hj₀
        (hty₀.trans (hlt.trans hty.symm)) (hsub₀.trans hsub)
      have hsame := hs.running_same hl hm hrow hr₀ hk
      subst hsame
      rw [hown now op rfl] at hw
      cases hw

end Steps

end WheelForge.Jobs
