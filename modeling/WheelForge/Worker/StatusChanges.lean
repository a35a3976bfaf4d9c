import WheelForge.Worker.NoStuckJob
import WheelForge.Worker.StageOrder

/-!
# The status changes that workers make

In every run of `workersSystem`, a step of a worker changes the status of a task by updates of three
kinds (`TaskUpdate`): a transition that `BuildStateMachine` allows, under the execution of the task
or for its first claim; the retry of an execution; and the takeover by a fresh one. A terminal task
is left alone (`worker_status_changes`).

The invariant `Tracks` relates the progress of an execution to the rows: as long as its job runs
under it, the task is in the stage to which it advanced the task last.
-/

set_option autoImplicit false

namespace WheelForge.Worker

open WheelForge.Interaction
open WheelForge.Transition
open WheelForge.Relational
open WheelForge.Jobs

/-- No task has the execution. -/
def Unused (db : Database) (e : Uuid) : Prop :=
  ∀ k t, db.task? k = some t → t.executionId ≠ some e

/-- The task is claimed by an execution that no task had before. -/
def ClaimedFresh (db : Database) (t' : BuildTask) : Prop :=
  ∃ e, t'.executionId = some e ∧ Unused db e

/-- An update of a task by a worker. -/
inductive TaskUpdate (db : Database) (t t' : BuildTask) : Prop
  /-- A transition of the state machine, under the execution of the task or for its first claim. -/
  | allowed (ha : Api.isAllowed t.status t'.status = true)
      (he : t'.executionId = t.executionId ∨ t.executionId = none ∧ ClaimedFresh db t')
  /-- The execution is ended for a retry. -/
  | retried (hn : t.status.isTerminal = false) (hx : t.executionId.isSome = true)
      (hs : t'.status = .queued) (he : t'.executionId = none)
  /-- Another execution takes the task over. -/
  | takenOver (hn : t.status.isTerminal = false) (hx : t.executionId.isSome = true)
      (hs : t'.status = .resolving) (he : ClaimedFresh db t')

/-- What one transaction of a worker does to the status and the execution of a task. A refused
subject claim is a claim and a failure in one transaction. -/
inductive StatusChange (db : Database) (t t' : BuildTask) : Prop
  | unchanged (hs : t'.status = t.status) (he : t'.executionId = t.executionId)
  | updated (h : TaskUpdate db t t')
  | refused (claimed : BuildTask) (h : TaskUpdate db t claimed) (hc : claimed.status = .resolving)
      (hs : t'.status = .failed) (he : t'.executionId = claimed.executionId)

/-- The rows agree with the progress of an execution. -/
def Tracks (s : SystemState) : Progress → Prop
  | .idle => True
  | .leased lease => lease ∈ s.leases ∧ Unused s.db lease.executionId
  | .inStage lease stage => lease ∈ s.leases ∧ lease.jobType = .build ∧
      ∀ t, s.db.task? lease.subjectId = some t → t.executionId = some lease.executionId →
        runsUnder lease s.db = true → t.status = stage
  | .left lease => lease ∈ s.leases

/-- The operations that claim a task or advance it. -/
def movesTask : LeaseOperation → Bool
  | .claimBuildSubject | .advanceBuild .. => true
  | _ => false

theorem isAllowed_failed {status : BuildStatus} (h : status.isTerminal = false) :
    Api.isAllowed status .failed = true := by
  cases status <;> first | rfl | cases h

theorem isAllowed_cancelled {status : BuildStatus} (h : status.isTerminal = false) :
    Api.isAllowed status .cancelled = true := by
  cases status <;> first | rfl | cases h

section Steps

variable {repo : JobRepository} {encode : Api.WireEncoder} {s s' : SystemState} {a : SystemAction}
  {g : Progress}

theorem Tracks.mem {lease : JobLease} (h : Tracks s g) (hg : g.lease? = some lease) :
    lease ∈ s.leases := by
  cases g with
  | idle => cases hg
  | leased l | inStage l stage =>
      cases hg
      exact h.1
  | left l =>
      cases hg
      exact h

/-- A task whose job runs is not terminal. -/
theorem running_nonterminal (hr : (jobSystem repo encode).Reachable PipelineUse s)
    {lease : JobLease} (hl : lease ∈ s.leases) (hty : lease.jobType = .build)
    (hrun : runsUnder lease s.db = true) {t : BuildTask}
    (ht : s.db.task? lease.subjectId = some t) : t.status.isTerminal = false := by
  obtain ⟨v, hv, hvr, -, -, hvs, -⟩ :=
    running_view (wellFormed_of_reachable hr) hl hty hrun ht
  have hview : buildProtocol.Reachable System.Any (some v) := by
    rw [← hv]
    exact buildView_reachable (fun _ _ h => h) (fun _ _ _ _ _ _ => trivial) hr
  rw [← hvs]
  exact BuildStatus.not_isTerminal_of_isNonterminal
    ((consistent_of_reachable hview).running hvr).1

/-! ## The updates of one transaction -/

/-- `_terminalize_subject` fails a task that is not terminal. -/
theorem statusChange_terminalized (db : Database) (jobType : JobType) (code message : String)
    (now : DateTime) (t : BuildTask) :
    StatusChange db t (t.terminalizedBy jobType code message now) := by
  unfold BuildTask.terminalizedBy
  split
  · next h => exact .updated (.allowed (isAllowed_failed h.2) (Or.inl rfl))
  · exact .unchanged rfl rfl

/-- A claimed task: its first claim, or a takeover. -/
theorem taskUpdate_claimed {db : Database} {lease : JobLease} {now : DateTime} {t : BuildTask}
    (hunused : Unused db lease.executionId) (hn : t.status.isTerminal = false)
    (hc : JobRepository.initialClaim lease t = true ∨
      JobRepository.takeoverClaim lease t = true) :
    TaskUpdate db t (t.claimed lease.executionId now) := by
  have hfresh : ClaimedFresh db (t.claimed lease.executionId now) := ⟨_, rfl, hunused⟩
  rcases hc with hi | htake
  · obtain ⟨-, hq, hnone⟩ := initialClaim_iff.1 hi
    refine .allowed ?_ (Or.inr ⟨hnone, hfresh⟩)
    rw [hq]
    rfl
  · obtain ⟨-, -, hprev, hx⟩ := takeoverClaim_iff.1 htake
    exact .takenOver hn (by rw [hx]; exact hprev) rfl hfresh

/-- What an operation does to the task of its build, when the operation is at its place. -/
theorem LeaseEffect.statusChange {lease : JobLease} {now : DateTime} {op : LeaseOperation}
    {e : Effect} (he : LeaseEffect repo lease now s.db op e) (ht : Tracks s g)
    (hg : g.lease? = some lease) (hu : usedByPipeline lease op = true) (hp : g.admits op)
    (hrun : runsUnder lease s.db = true) {t : BuildTask}
    (hfound : s.db.task? lease.subjectId = some t) (hn : t.status.isTerminal = false) :
    StatusChange s.db t (e.task t) := by
  have hstage : ∀ stage, g = .inStage lease stage → t.executionId = some lease.executionId →
      t.status = stage := by
    rintro stage rfl hx
    exact ht.2.2 t hfound hx hrun
  cases he with
  | keep | renew | claimParse | completeParse => exact .unchanged rfl rfl
  | complete => cases hu
  | requeue hlt =>
      show StatusChange s.db t (BuildTask.resetBy lease t)
      unfold BuildTask.resetBy
      split
      · next h => exact .updated (.retried hn (by rw [h.2]; rfl) rfl rfl)
      · exact .unchanged rfl rfl
  | fail => exact statusChange_terminalized _ _ _ _ _ _
  | @claimBuild t' _ ht' hf hb hc =>
      obtain ⟨l, rfl⟩ := hp
      obtain rfl : l = lease := Option.some.inj hg
      obtain rfl : t = t' := Option.some.inj (hfound.symm.trans ht')
      exact .updated (taskUpdate_claimed ht.2 hn hc)
  | @claimBuildMalformed t' ht' hc code error message =>
      obtain ⟨l, rfl⟩ := hp
      obtain rfl : l = lease := Option.some.inj hg
      obtain rfl : t = t' := Option.some.inj (hfound.symm.trans ht')
      have hty : l.jobType = .build := of_decide_eq_true hu
      refine .refused (t.claimed l.executionId now) (taskUpdate_claimed ht.2 hn hc) rfl ?_ ?_
      · show (BuildTask.terminalizedBy l.jobType code message now
          (t.claimed l.executionId now)).status = _
        rw [hty]
        rfl
      · exact BuildTask.terminalizedBy_execution _ _ _ _ _
  | cancel ht' hx hc => exact .updated (.allowed (isAllowed_cancelled hn) (Or.inl rfl))
  | @advance status _ _ _ _ t' ht' hx hterm =>
      obtain ⟨l, stage, rfl, hnext⟩ := hp
      obtain rfl : l = lease := Option.some.inj hg
      obtain rfl : t = t' := Option.some.inj (hfound.symm.trans ht')
      have hs : t.status = stage := hstage stage rfl hx
      rcases hnext with rfl | ha
      · exact .unchanged hs.symm rfl
      · refine .updated (.allowed ?_ (Or.inl rfl))
        rw [hs]
        exact ha
  | @publish _ _ _ status _ t' ht' hx hc =>
      obtain ⟨l, stage, rfl, ha⟩ := hp
      obtain rfl : l = lease := Option.some.inj hg
      obtain rfl : t = t' := Option.some.inj (hfound.symm.trans ht')
      have hs : t.status = stage := hstage stage rfl hx
      refine .updated (.allowed ?_ (Or.inl rfl))
      rw [hs]
      exact ha

/-- What an operation at its place does to any task. -/
theorem statusChange_operate (hr : (jobSystem repo encode).Reachable PipelineUse s)
    {lease : JobLease} {now : DateTime} {op : LeaseOperation}
    (h : SystemStep repo encode s (.operate lease now op) s') (ht : Tracks s g)
    (hg : g.lease? = some lease) (hu : usedByPipeline lease op = true) (hp : g.admits op) {k : Uuid}
    {t t' : BuildTask} (hk : s.db.task? k = some t) (hk' : s'.db.task? k = some t') :
    StatusChange s.db t t' := by
  cases h.effect with
  | idle hdb =>
      rw [hdb, hk] at hk'
      cases hk'
      exact .unchanged rfl rfl
  | operated hl hrow he happ =>
      have hfwd := (happ.task_forward hk).symm.trans hk'
      cases hfwd
      split
      · next hsub =>
        subst hsub
        cases hty : lease.jobType with
        | requirementParse =>
            rw [(he.of_parse hu hty).1 t]
            exact .unchanged rfl rfl
        | build =>
            have hrun := runsUnder_of_owned hrow
            exact LeaseEffect.statusChange he ht hg hu hp hrun hk
              (running_nonterminal hr hl hty hrun hk)
      · exact .unchanged rfl rfl

/-- What a pass of `claim_next` does to any task. -/
theorem statusChange_claim {workerId : String} {executionId : Uuid} {locked : Uuid → Bool}
    {now : DateTime} (h : SystemStep repo encode s (.claim workerId executionId locked now) s')
    {k : Uuid} {t t' : BuildTask} (hk : s.db.task? k = some t) (hk' : s'.db.task? k = some t') :
    StatusChange s.db t t' := by
  cases h.effect with
  | idle hdb =>
      rw [hdb, hk] at hk'
      cases hk'
      exact .unchanged rfl rfl
  | exhausted hrow happ =>
      have hfwd := (happ.task_forward hk).symm.trans hk'
      cases hfwd
      split
      · exact statusChange_terminalized _ _ _ _ _ _
      · exact .unchanged rfl rfl
  | leased hrow ha hfresh happ =>
      have hfwd := (happ.task_forward hk).symm.trans hk'
      cases hfwd
      split <;> exact .unchanged rfl rfl

/-! ## The progress beside other steps -/

/-- Only a subject claim gives a task the execution of its lease. -/
theorem LeaseEffect.execution_moved {lease : JobLease} {now : DateTime} {op : LeaseOperation}
    {e : Effect} {db : Database} (he : LeaseEffect repo lease now db op e)
    (hm : movesTask op = false) (t : BuildTask) :
    (e.task t).executionId = t.executionId ∨ (e.task t).executionId = none := by
  cases he with
  | keep | renew | complete | claimParse | completeParse | cancel | publish => exact Or.inl rfl
  | claimBuild | claimBuildMalformed | advance => cases hm
  | fail => exact Or.inl (BuildTask.terminalizedBy_execution _ _ _ _ _)
  | requeue =>
      show (BuildTask.resetBy lease t).executionId = t.executionId ∨
        (BuildTask.resetBy lease t).executionId = none
      unfold BuildTask.resetBy
      split
      · exact Or.inr rfl
      · exact Or.inl rfl

/-- The own operations of an execution. -/
def MovesOwnTask (lease : JobLease) : SystemAction → Prop
  | .operate l _ op => l = lease ∧ movesTask op = true
  | _ => False

/-- An execution that has claimed nothing stays unused. -/
theorem unused_step (hs : WellFormed s) (h : SystemStep repo encode s a s') {lease : JobLease}
    (hl : lease ∈ s.leases) (hown : ¬ MovesOwnTask lease a)
    (hunused : Unused s.db lease.executionId) : Unused s'.db lease.executionId := by
  intro k t' ht' hx
  cases h.effect with
  | idle hdb =>
      rw [hdb] at ht'
      exact hunused k t' ht' hx
  | exhausted hrow happ =>
      obtain ⟨t, ht, rfl⟩ := happ.task_backward ht'
      refine hunused k t ht ?_
      rw [← hx]
      split
      · exact (BuildTask.terminalizedBy_execution _ _ _ _ _).symm
      · rfl
  | leased hrow ha hfresh happ =>
      obtain ⟨t, ht, rfl⟩ := happ.task_backward ht'
      refine hunused k t ht ?_
      rw [← hx]
      split <;> rfl
  | @operated l now op row e hl' hrow he happ =>
      obtain ⟨t, ht, rfl⟩ := happ.task_backward ht'
      split at hx
      · by_cases hm : movesTask op = true
        · rcases he.task_execution t with hsame | hnone | hsome
          · exact hunused k t ht (hsame.symm.trans hx)
          · rw [hnone] at hx
            cases hx
          · rw [hsome, Option.some_inj] at hx
            exact hown ⟨List.inj_on_of_nodup_map hs.leases_distinct hl' hl hx, hm⟩
        · rcases LeaseEffect.execution_moved he (Bool.eq_false_iff.2 hm) t with hsame | hnone
          · exact hunused k t ht (hsame.symm.trans hx)
          · rw [hnone] at hx
            cases hx
      · exact hunused k t ht hx
  | requested hreq =>
      cases hreq with
      | build task payload jobId now file key hnew hfile howner hkey hsource htask hjob jobs tasks =>
          have ht := (tasks k).symm.trans ht'
          split at ht
          · cases ht
            obtain ⟨_, _, _, _, _, _, heq⟩ := hnew
            rw [heq] at hx
            cases hx
          · exact hunused k t' ht hx
      | parse file payload jobId now hnew hkey hfile hjob jobs tasks =>
          exact hunused k t' ((tasks k).symm.trans ht') hx
      | delete task now htask hd =>
          rw [hd, Database.task?_setTask] at ht'
          split at ht'
          · next hk =>
            obtain ⟨t, ht, rfl⟩ := Option.map_eq_some_iff.1 ht'
            refine hunused _ task htask ?_
            rw [← hx]
            unfold Api.softDelete
            split <;> rfl
          · exact hunused k t' ht' hx
  | @cancelled c matched task task' hc hm hfin =>
      have ht := (hfin.task k).symm.trans ht'
      split at ht
      · cases ht
        exact hunused _ task hfin.found (hfin.result.same.2.1.symm.trans hx)
      · exact hunused k t' ht hx

/-- A task whose job runs under an execution is moved by that execution only. -/
theorem inStage_step (hs : WellFormed s) (h : SystemStep repo encode s a s')
    (hu : PipelineUse s a) {lease : JobLease} (hl : lease ∈ s.leases) (hty : lease.jobType = .build) (hown : ¬ MovesOwnTask lease a)
    (hrun : runsUnder lease s'.db = true) {t' : BuildTask}
    (ht' : s'.db.task? lease.subjectId = some t')
    (hx : t'.executionId = some lease.executionId) :
    ∃ t, s.db.task? lease.subjectId = some t ∧ t.executionId = some lease.executionId ∧
      t.status = t'.status := by
  have hold : runsUnder lease s.db = true := runsUnder_step h hl hrun
  obtain ⟨j', hj', hjr, hje⟩ := runsUnder_iff.1 hrun
  -- the row of another job of the same subject would be the row of the lease
  have hsame : ∀ {target : JobLease} {row : BuildJob} {e : Effect},
      Applies target s.db s'.db row e → row.jobType = .build →
        lease.subjectId = target.subjectId → row.subjectId = target.subjectId →
          target.id = lease.id := by
    intro target row e happ hrty hsub hrsub
    exact hs.lease_unique hl happ.found (hrty.trans hty.symm) (hrsub.trans hsub.symm)
  cases h.effect with
  | idle hdb =>
      rw [hdb] at ht'
      exact ⟨t', ht', hx, rfl⟩
  | @exhausted workerId executionId locked now row hrow happ =>
      obtain ⟨t, ht, rfl⟩ := happ.task_backward ht'
      by_cases hsub : lease.subjectId = (repo.leaseOf row workerId executionId).subjectId
      · rw [if_pos hsub] at hx ⊢
        by_cases hrty : row.jobType = .build
        · -- the job of the lease has failed
          have hid := hsame happ hrty hsub rfl
          rw [← hid, happ.job?_self] at hj'
          cases hj'
          cases hjr
        · have heq : BuildTask.terminalizedBy row.jobType "JOB_ATTEMPTS_EXHAUSTED"
              exhaustedMessage now t = t := if_neg fun h => hrty h.1
          exact ⟨t, ht, (congrArg BuildTask.executionId heq).symm.trans hx,
            (congrArg BuildTask.status heq).symm⟩
      · rw [if_neg hsub] at hx ⊢
        exact ⟨t, ht, hx, rfl⟩
  | leased hrow ha hfresh happ =>
      obtain ⟨t, ht, rfl⟩ := happ.task_backward ht'
      split at hx <;> split <;> exact ⟨t, ht, hx, rfl⟩
  | @operated l now op row e hl' hrow he happ =>
      obtain ⟨t, ht, rfl⟩ := happ.task_backward ht'
      by_cases hsub : lease.subjectId = l.subjectId
      · rw [if_pos hsub] at hx ⊢
        obtain ⟨j, hj, hjty, hjsub, -⟩ := hs.lease_job l hl'
        obtain rfl : j = row := Option.some.inj (hj.symm.trans hrow.found)
        cases hlty : l.jobType with
        | requirementParse =>
            rw [(he.of_parse hu hlty).1 t] at hx ⊢
            exact ⟨t, ht, hx, rfl⟩
        | build =>
            have hid := hsame happ (hjty.trans hlty) hsub hjsub
            have heq := hs.running_same hl hl' hrow hold hid
            subst heq
            rw [happ.job?_self] at hj'
            cases hj'
            have hm : movesTask op = false :=
              Bool.eq_false_iff.2 fun hm => hown ⟨rfl, hm⟩
            cases he with
            | keep | renew | claimParse | completeParse => exact ⟨t, ht, hx, rfl⟩
            | claimBuild | claimBuildMalformed | advance => cases hm
            | complete | requeue | fail | cancel | publish => cases hjr
      · rw [if_neg hsub] at hx ⊢
        exact ⟨t, ht, hx, rfl⟩
  | requested hreq =>
      cases hreq with
      | build task payload jobId now file key hnew hfile howner hkey hsource htask hjob jobs tasks =>
          have ht := (tasks _).symm.trans ht'
          split at ht
          · cases ht
            obtain ⟨_, _, _, _, _, _, heq⟩ := hnew
            rw [heq] at hx
            cases hx
          · exact ⟨t', ht, hx, rfl⟩
      | parse file payload jobId now hnew hkey hfile hjob jobs tasks =>
          exact ⟨t', (tasks _).symm.trans ht', hx, rfl⟩
      | delete task now htask hd =>
          have hdeleted : (Api.softDelete task now).executionId = task.executionId ∧
              (Api.softDelete task now).status = task.status ∧
                (Api.softDelete task now).id = task.id := by
            unfold Api.softDelete
            split <;> exact ⟨rfl, rfl, rfl⟩
          rw [hd, Database.task?_setTask, hdeleted.2.2] at ht'
          split at ht'
          · next hk =>
            obtain ⟨t, ht, rfl⟩ := Option.map_eq_some_iff.1 ht'
            rw [hk]
            exact ⟨task, htask, hdeleted.1.symm.trans hx, hdeleted.2.1.symm⟩
          · exact ⟨t', ht', hx, rfl⟩
  | @cancelled c matched task task' hc hm hfin =>
      have ht := (hfin.task _).symm.trans ht'
      split at ht
      · next hk =>
        cases ht
        rw [hk]
        refine ⟨task, hfin.found, hfin.result.same.2.1.symm.trans hx, ?_⟩
        cases hfin.result with
        | terminal | requested => rfl
        | cancelled hq hn =>
            -- the matched job is the job of the lease, and it was ready
            obtain ⟨-, hids⟩ := hs.cancel_matched c hc matched hm
            obtain ⟨i, hi⟩ := List.exists_mem_of_length_pos (by rw [hn]; exact Nat.one_pos)
            obtain ⟨j, hj, hready, hjty, hjsub⟩ := hids i hi
            have hid := hs.lease_unique hl hj (hjty.trans hty.symm) (hjsub.trans hk.symm)
            obtain ⟨j₀, hj₀, hrun₀, -⟩ := runsUnder_iff.1 hold
            rw [← hid, hj] at hj₀
            cases hj₀
            rw [hready] at hrun₀
            cases hrun₀
      · exact ⟨t', ht, hx, rfl⟩

/-- The rows keep agreeing with the progress of an execution that does not move its task itself. -/
theorem Tracks.step (ht : Tracks s g) (hs : WellFormed s) (h : SystemStep repo encode s a s')
    (hu : PipelineUse s a) (hown : ∀ lease, g.lease? = some lease → ¬ MovesOwnTask lease a) :
    Tracks s' g := by
  cases g with
  | idle => trivial
  | leased lease =>
      obtain ⟨hl, hunused⟩ := ht
      exact ⟨leases_step h hl, unused_step hs h hl (hown lease rfl) hunused⟩
  | inStage lease stage =>
      obtain ⟨hl, hty, hstage⟩ := ht
      refine ⟨leases_step h hl, hty, fun t' ht' hx hrun => ?_⟩
      obtain ⟨t, ht, hxt, hst⟩ := inStage_step hs h hu hl hty (hown lease rfl) hrun ht' hx
      rw [← hst]
      exact hstage t ht hxt (runsUnder_step h hl hrun)
  | left lease => exact leases_step h ht

/-- A subject claim leaves the task in its first stage, if its job still runs under the lease. -/
theorem tracks_claimed (h : SystemStep repo encode s a s') {lease : JobLease} {now : DateTime}
    (ha : a = .operate lease now .claimBuildSubject) (hty : lease.jobType = .build)
    (ht : Tracks s (.leased lease)) : Tracks s' (.inStage lease .resolving) := by
  obtain ⟨hl, hunused⟩ := ht
  refine ⟨leases_step h hl, hty, fun t' ht' hx hrun => ?_⟩
  subst ha
  cases h.effect with
  | idle hdb =>
      rw [hdb] at ht'
      exact absurd hx (hunused _ t' ht')
  | operated _ hrow he happ =>
      obtain ⟨t, ht, rfl⟩ := happ.task_backward ht'
      rw [if_pos rfl] at hx ⊢
      obtain ⟨j', hj', hjr, -⟩ := runsUnder_iff.1 hrun
      rw [happ.job?_self] at hj'
      cases hj'
      cases he with
      | keep => exact absurd hx (hunused _ t ht)
      | fail | claimBuildMalformed => cases hjr
      | claimBuild => rfl

/-- An answered `advance_build` leaves the task in the given stage. -/
theorem advanceBuild_status {lease : JobLease} {status : BuildStatus} {progress : Int}
    {stage message : String} {rowId : Uuid} {now : DateTime} {db db' : Database} {u : Unit}
    (h : repo.advanceBuild lease status progress stage message rowId now db = .ok (u, db'))
    {t' : BuildTask} (ht' : db'.task? lease.subjectId = some t') : t'.status = status := by
  unfold JobRepository.advanceBuild at h
  split at h
  · cases h
  · next db₁ hjob =>
    split at h
    · cases h
    · next db₂ htask =>
      obtain ⟨t, ht, -, rfl⟩ := Database.updateTask_eq_some_iff.1 htask
      split at h
      · cases h
      · next hlog =>
        cases h
        obtain ⟨logs, rfl⟩ := appendLogRow_ok hlog
        have hid : t.id = lease.subjectId := task?_id ht
        have hset : Database.task? (db₁.setTask (t.advanced status progress stage))
            lease.subjectId = some t' := ht'
        rw [Database.task?_setTask] at hset
        change (if lease.subjectId = t.id then _ else _) = _ at hset
        rw [if_pos hid.symm, ht] at hset
        cases hset
        rfl

/-- The progress after an own operation agrees with the rows. -/
theorem tracks_after (hs : WellFormed s) {lease : JobLease} {now : DateTime} {op : LeaseOperation}
    (h : SystemStep repo encode s (.operate lease now op) s') (ht : Tracks s g)
    (hallows : g.Allows (.operate lease op)) {r : Except PyError op.Answer}
    (hr : r = answerOf (transact repo lease now op s.db) ∨ ∃ e, r = .error e) :
    Tracks s' (g.after (.operate lease op) r) := by
  obtain ⟨hg, hu, hp⟩ := hallows
  have hmem : lease ∈ s'.leases := leases_step h (ht.mem hg)
  cases op with
  | claimBuildSubject =>
      obtain ⟨l, rfl⟩ := hp
      obtain rfl : l = lease := Option.some.inj hg
      rcases r with e | (_ | subject)
      · exact hmem
      · exact hmem
      · exact tracks_claimed h rfl (of_decide_eq_true hu) ht
  | advanceBuild status progress stage message rowId =>
      rcases r with e | u
      · exact hmem
      · simp only [usedByPipeline, Bool.and_eq_true, decide_eq_true_eq] at hu
        refine ⟨hmem, hu.1, fun t' ht' _ _ => ?_⟩
        rcases hr with hr | ⟨e, hr⟩
        · cases htxn : repo.advanceBuild lease status progress stage message rowId now s.db with
          | error e =>
              have herr : Except.ok u = answerOf
                (repo.advanceBuild lease status progress stage message rowId now s.db) := hr
              rw [htxn] at herr
              cases herr
          | ok result =>
              obtain ⟨u', db'⟩ := result
              have hdb : s'.db = db' := by
                cases h
                show (repo.advanceBuild lease status progress stage message rowId now).commit
                  s.db = db'
                unfold Txn.commit
                rw [htxn]
              rw [hdb] at ht'
              exact advanceBuild_status htxn ht'
        · cases hr
  | _ =>
      refine Tracks.step ht hs h hu ?_
      rintro l - ⟨-, hm⟩
      cases hm

/-- A failed call leaves the rows alone. -/
theorem tracks_failed (ht : Tracks s g) {o : WorkerOp} (hallows : g.Allows o) (e : PyError) :
    Tracks s (g.after o (.error e)) := by
  cases o with
  | operate lease op =>
      have hmem := ht.mem hallows.1
      cases op <;> first | exact hmem | exact ht
  | _ => exact ht

/-- An execution keeps its lease. -/
theorem lease_after {lease : JobLease} {op : LeaseOperation} (hg : g.lease? = some lease)
    (r : Except PyError op.Answer) : (g.after (.operate lease op) r).lease? = some lease := by
  cases op with
  | claimBuildSubject => rcases r with e | (_ | subject) <;> rfl
  | advanceBuild => rcases r with e | u <;> rfl
  | _ => exact hg

end Steps

/-! ## Runs -/

section Runs

variable {repo : JobRepository} {encode : Api.WireEncoder} {pipeline : JobPipeline}
  {s s' : WorkersState} {a : WorkersAction}

/-- Every process follows the order from its progress on, the rows agree with the progress of every
execution, and no two processes have one execution. -/
structure Ordered (s : WorkersState) (G : Nat → Progress) : Prop where
  follows : ∀ i p, s.processes i = some p → Follows (G i) p fun _ _ => True
  tracks : ∀ i, Tracks s.sys (G i)
  distinct : ∀ i j l l', i ≠ j → (G i).lease? = some l → (G j).lease? = some l' →
    l.executionId ≠ l'.executionId

variable (repo encode) in
/-- The invariant of `workersSystem`. -/
structure Sound (s : WorkersState) : Prop where
  reachable : (jobSystem repo encode).Reachable PipelineUse s.sys
  ordered : ∃ G, Ordered s G

/-- Process `i` goes on with a program that follows the order from `g` on. -/
theorem Ordered.resume {G : Nat → Progress} (ho : Ordered s G) {sys' : SystemState} {i : Nat}
    {p : WorkerProgram Bool} {g : Progress} (hp : Follows g p fun _ _ => True)
    (hg : Tracks sys' g) (hothers : ∀ j, j ≠ i → Tracks sys' (G j))
    (hfresh : ∀ l, g.lease? = some l → (G i).lease? = some l ∨
      l.executionId ∉ s.sys.leases.map JobLease.executionId) :
    Ordered (s.resume sys' i p) (Function.update G i g) := by
  -- an execution of another process is not the one of process `i`
  have hdistinct : ∀ j l l', j ≠ i → g.lease? = some l → (G j).lease? = some l' →
      l.executionId ≠ l'.executionId := by
    intro j l l' hj hl hl'
    rcases hfresh l hl with hold | hnew
    · exact ho.distinct i j l l' hj.symm hold hl'
    · intro heq
      exact hnew (heq ▸ List.mem_map.2 ⟨l', (ho.tracks j).mem hl', rfl⟩)
  refine ⟨fun j q hq => ?_, fun j => ?_, fun j₁ j₂ l l' hne hl hl' => ?_⟩
  · by_cases hj : j = i
    · subst hj
      have hq' : some p = some q := by
        rw [← hq]
        exact (Function.update_self j (some p) s.processes).symm
      cases hq'
      rw [Function.update_self]
      exact hp
    · rw [Function.update_of_ne hj]
      apply ho.follows j q
      rw [← hq]
      exact (Function.update_of_ne hj (some p) s.processes).symm
  · by_cases hj : j = i
    · subst hj
      rw [Function.update_self]
      exact hg
    · rw [Function.update_of_ne hj]
      exact hothers j hj
  · by_cases h₁ : j₁ = i
    · subst h₁
      rw [Function.update_self] at hl
      rw [Function.update_of_ne hne.symm] at hl'
      exact hdistinct j₂ l l' hne.symm hl hl'
    · rw [Function.update_of_ne h₁] at hl
      by_cases h₂ : j₂ = i
      · subst h₂
        rw [Function.update_self] at hl'
        exact (hdistinct j₁ l' l hne hl' hl).symm
      · rw [Function.update_of_ne h₂] at hl'
        exact ho.distinct j₁ j₂ l l' hne hl hl'

/-- A step of the database beside the processes. -/
theorem Ordered.beside {G : Nat → Progress} (ho : Ordered s G) (hs : WellFormed s.sys)
    {a : SystemAction} {sys' : SystemState} (h : SystemStep repo encode s.sys a sys')
    (hu : PipelineUse s.sys a) (hown : ∀ lease, ¬ MovesOwnTask lease a) :
    Ordered { s with sys := sys' } G where
  follows := ho.follows
  tracks i := (ho.tracks i).step hs h hu fun lease _ => hown lease
  distinct := ho.distinct

theorem isApiAction_use {a : SystemAction} (ha : isApiAction a = true) (t : SystemState) :
    PipelineUse t a ∧ ∀ lease, ¬ MovesOwnTask lease a := by
  cases a with
  | claim | operate => cases ha
  | request | beginCancel | matchCancel | finishCancel | abandonCancel =>
      exact ⟨trivial, fun _ h => h⟩

theorem sound_claimNext (hs : Sound repo encode s) {i : Nat} {workerId : String}
    {k : Except PyError (Option JobLease) → WorkerProgram Bool} {executionId : Uuid}
    {locked : Uuid → Bool} {now : DateTime} {sys' : SystemState} {p : WorkerProgram Bool}
    (hi : s.processes i = some (.call (.claimNext workerId) k))
    (h : SystemStep repo encode s.sys (.claim workerId executionId locked now) sys')
    (hp : p = afterPass workerId k (repo.claimPass workerId executionId locked now s.sys.db).1 ∨
      ∃ e, p = k (.error e)) : Sound repo encode (s.resume sys' i p) := by
  obtain ⟨hr, G, ho⟩ := hs
  have hwf := wellFormed_of_reachable hr
  refine ⟨hr.step (a := .claim workerId executionId locked now) trivial h, ?_⟩
  have hothers : ∀ j, Tracks sys' (G j) := fun j => (ho.tracks j).step hwf h trivial fun _ _ h => h
  obtain ⟨hidle, hk⟩ := ho.follows i _ hi
  -- the process stays without a lease unless the pass handed one out
  have hkeep : Follows .idle p (fun _ _ => True) →
      ∃ G', Ordered (s.resume sys' i p) G' := fun hf =>
    ⟨_, ho.resume hf trivial (fun j _ => hothers j) nofun⟩
  rcases hp with rfl | ⟨e, rfl⟩
  · have hcase := claimPass_cases repo workerId executionId locked now s.sys.db
    cases h with
    | claim hw hfresh hlocked =>
      generalize hres : repo.claimPass workerId executionId locked now s.sys.db = result at *
      obtain ⟨pass, db'⟩ := result
      cases hcase with
      | idle =>
          apply hkeep
          have hf := hk (.ok none) .idle (by rw [hidle]; rfl)
          exact hf
      | exhausted =>
          apply hkeep
          rw [hidle] at hk
          exact ⟨rfl, hk⟩
      | @leased row _ hrow ha happ =>
          refine ⟨_, ho.resume (g := .leased (repo.leaseOf row workerId executionId))
            (hk (.ok (some _)) _ rfl) ⟨?_, ?_⟩ (fun j _ => hothers j) ?_⟩
          · exact List.mem_append_right _ (List.mem_singleton.2 rfl)
          · intro k' t' ht' hx
            obtain ⟨t, ht, rfl⟩ := happ.task_backward ht'
            refine hfresh (hwf.task_execution k' t executionId ht (Eq.trans ?_ hx))
            split <;> rfl
          · intro l hl
            cases hl
            exact Or.inr hfresh
  · apply hkeep
    exact hk (.error e) .idle (by rw [hidle]; rfl)

/-- Every step keeps the invariant. -/
theorem sound_step (hs : Sound repo encode s) (h : WorkersStep repo encode pipeline s a s') :
    Sound repo encode s' := by
  have hr := hs.reachable
  have hwf := wellFormed_of_reachable hr
  cases h with
  | start i workerId =>
      obtain ⟨G, ho⟩ := hs.ordered
      exact ⟨hr, _, ho.resume (follows_runOnce pipeline workerId) trivial
        (fun j _ => ho.tracks j) nofun⟩
  | claimNext hi h hp => exact sound_claimNext hs hi h hp
  | @operate i lease op k now sys' r hi h hres =>
      obtain ⟨G, ho⟩ := hs.ordered
      obtain ⟨hallows, hk⟩ := ho.follows i _ hi
      refine ⟨hr.step (a := .operate lease now op) hallows.2.1 h, _, ho.resume (hk r _ rfl)
        (tracks_after hwf h (ho.tracks i) hallows hres) ?_ ?_⟩
      · intro j hj
        apply (ho.tracks j).step hwf h hallows.2.1
        rintro l hl ⟨rfl, -⟩
        exact ho.distinct j i lease lease hj hl hallows.1 rfl
      · intro l hl
        rw [lease_after hallows.1] at hl
        cases hl
        exact Or.inl hallows.1
  | @outside i o k r hi hout =>
      obtain ⟨G, ho⟩ := hs.ordered
      obtain ⟨-, hk⟩ := ho.follows i _ hi
      have hafter : (G i).after o r = G i := by
        cases o <;> first | rfl | exact nomatch hout
      refine ⟨hr, _, ho.resume (hk r _ rfl) ?_ (fun j _ => ho.tracks j) ?_⟩
      · rw [hafter]
        exact ho.tracks i
      · rw [hafter]
        exact fun l hl => Or.inl hl
  | @failed i o k e hi =>
      obtain ⟨G, ho⟩ := hs.ordered
      obtain ⟨hallows, hk⟩ := ho.follows i _ hi
      refine ⟨hr, _, ho.resume (hk (.error e) _ rfl) (tracks_failed (ho.tracks i) hallows e)
        (fun j _ => ho.tracks j) ?_⟩
      intro l hl
      cases o with
      | operate lease op =>
          have hafter := lease_after hallows.1 (.error e : Except PyError op.Answer)
          cases hafter.symm.trans hl
          exact Or.inl hallows.1
      | _ => exact Or.inl hl
  | heartbeat h =>
      obtain ⟨G, ho⟩ := hs.ordered
      refine ⟨hr.step (a := .operate _ _ .heartbeat) rfl h, G, ho.beside hwf h rfl ?_⟩
      rintro l ⟨-, hm⟩
      cases hm
  | api ha h =>
      obtain ⟨G, ho⟩ := hs.ordered
      obtain ⟨hu, hown⟩ := isApiAction_use ha s.sys
      exact ⟨hr.step hu h, G, ho.beside hwf h hu hown⟩

theorem sound_of_reachable
    (h : (workersSystem repo encode pipeline).Reachable System.Any s) : Sound repo encode s := by
  refine h.invariant ?_ fun _ _ _ ht _ hstep => sound_step ht hstep
  rintro _ rfl
  refine ⟨System.Reachable.of_init rfl, fun _ => .idle, ?_⟩
  exact ⟨fun _ _ h => (by cases h), fun _ => trivial, fun _ _ _ _ _ h => by cases h⟩

end Runs

/-- A terminal task has no update. -/
theorem StatusChange.of_terminal {db : Database} {t t' : BuildTask} (h : StatusChange db t t')
    (ht : t.status.isTerminal = true) : t'.status = t.status ∧ t'.executionId = t.executionId := by
  have hnone : ∀ u, ¬ TaskUpdate db t u := by
    intro u hu
    cases hu with
    | allowed ha he =>
        rw [Api.isAllowed_of_terminal ht] at ha
        cases ha
    | retried hn | takenOver hn =>
        rw [ht] at hn
        cases hn
  cases h with
  | unchanged hs he => exact ⟨hs, he⟩
  | updated h => exact absurd h (hnone t')
  | refused claimed h => exact absurd h (hnone claimed)

/-- In every run, a step of a worker changes the status of a task by transitions that the state
machine allows, by a retry of its execution, or by the takeover of a fresh one; and it leaves a
terminal task alone. -/
theorem worker_status_changes {repo : JobRepository} {encode : Api.WireEncoder}
    {pipeline : JobPipeline} {s s' : WorkersState} {a : WorkersAction}
    (hs : (workersSystem repo encode pipeline).Reachable System.Any s)
    (h : (workersSystem repo encode pipeline).step s a s') (ha : a.ofWorker = true) {k : Uuid}
    {t t' : BuildTask} (ht : s.sys.db.task? k = some t) (ht' : s'.sys.db.task? k = some t') :
    StatusChange s.sys.db t t' ∧
      (t.status.isTerminal = true → t'.status = t.status ∧ t'.executionId = t.executionId) := by
  have hsound := sound_of_reachable hs
  have hchange : StatusChange s.sys.db t t' := by
    cases h with
    | start | outside | failed =>
        obtain rfl : t = t' := Option.some.inj (ht.symm.trans ht')
        exact .unchanged rfl rfl
    | claimNext hi h hp => exact statusChange_claim h ht ht'
    | @operate i lease op k now sys' r hi h hr =>
        obtain ⟨G, ho⟩ := hsound.ordered
        obtain ⟨⟨hg, hu, hp⟩, -⟩ := ho.follows i _ hi
        exact statusChange_operate hsound.reachable h (ho.tracks i) hg hu hp ht ht'
    | @heartbeat lease now sys' h =>
        have htrack : Tracks s.sys (.left lease) := by
          cases h with
          | operate hl => exact hl
        exact statusChange_operate hsound.reachable h htrack rfl rfl trivial ht ht'
    | api => cases ha
  exact ⟨hchange, hchange.of_terminal⟩

/-! ## One run -/

/-- The state after an action, with the given answers outside the database. -/
def execWorkers (pipeline : JobPipeline) (answer : (o : WorkerOp) → Except PyError o.Answer)
    (s : WorkersState) : WorkersAction → Option WorkersState
  | .start i workerId => some (s.resume s.sys i (pipeline.runOnce workerId))
  | .claimNext i executionId locked now =>
      match s.processes i with
      | some (.call (.claimNext workerId) k) =>
          (exec workerRepository workerEncoder s.sys
            (.claim workerId executionId locked now)).map fun sys' =>
              s.resume sys' i (afterPass workerId k
                (workerRepository.claimPass workerId executionId locked now s.sys.db).1)
      | _ => none
  | .operate i now =>
      match s.processes i with
      | some (.call (.operate lease op) k) =>
          (exec workerRepository workerEncoder s.sys (.operate lease now op)).map fun sys' =>
            s.resume sys' i (k (answerOf (transact workerRepository lease now op s.sys.db)))
      | _ => none
  | .answer i =>
      match s.processes i with
      | some (.call o k) =>
          if o.isOutside = true then some (s.resume s.sys i (k (answer o))) else none
      | _ => none
  | .heartbeat .. => none
  | .api a =>
      if isApiAction a = true then
        (exec workerRepository workerEncoder s.sys a).map fun sys' => { s with sys := sys' }
      else none

theorem execWorkers_step {pipeline : JobPipeline} {answer : (o : WorkerOp) → Except PyError o.Answer}
    {s s' : WorkersState} {a : WorkersAction} (h : execWorkers pipeline answer s a = some s') :
    WorkersStep workerRepository workerEncoder pipeline s a s' := by
  cases a with
  | start i workerId =>
      cases h
      exact .start i workerId
  | claimNext i executionId locked now =>
      dsimp only [execWorkers] at h
      split at h
      · next hi =>
        obtain ⟨sys', hs, rfl⟩ := Option.map_eq_some_iff.1 h
        exact .claimNext hi (exec_step hs) (Or.inl rfl)
      · cases h
  | operate i now =>
      dsimp only [execWorkers] at h
      split at h
      · next hi =>
        obtain ⟨sys', hs, rfl⟩ := Option.map_eq_some_iff.1 h
        exact .operate hi (exec_step hs) (Or.inl rfl)
      · cases h
  | answer i =>
      dsimp only [execWorkers] at h
      split at h
      · next hi =>
        split at h
        · next ho =>
          cases h
          exact .outside _ hi ho
        · cases h
      · cases h
  | heartbeat lease now => cases h
  | api a =>
      dsimp only [execWorkers] at h
      split at h
      · next ha =>
        obtain ⟨sys', hs, rfl⟩ := Option.map_eq_some_iff.1 h
        exact .api ha (exec_step hs)
      · cases h

/-- The state after a list of actions. -/
def execAllWorkers (pipeline : JobPipeline) (answer : (o : WorkerOp) → Except PyError o.Answer) :
    List WorkersAction → WorkersState → Option WorkersState
  | [], s => some s
  | a :: actions, s =>
      (execWorkers pipeline answer s a).bind (execAllWorkers pipeline answer actions)

theorem execAllWorkers_steps {pipeline : JobPipeline}
    {answer : (o : WorkerOp) → Except PyError o.Answer} {actions : List WorkersAction} :
    ∀ {s s' : WorkersState}, execAllWorkers pipeline answer actions s = some s' →
      (workersSystem workerRepository workerEncoder pipeline).Steps System.Any s s' := by
  induction actions with
  | nil =>
      intro s s' h
      cases h
      exact System.Steps.refl _
  | cons a actions ih =>
      intro s s' h
      obtain ⟨s₁, h₁, h₂⟩ := Option.bind_eq_some_iff.1 h
      have hstep : (workersSystem workerRepository workerEncoder pipeline).step s a s₁ :=
        execWorkers_step h₁
      exact (System.Steps.single trivial hstep).trans (ih h₂)

/-- The validators on the jobs of `workerActions`. -/
def jobsPipeline : JobPipeline :=
  { workerPipeline with
    decodeEnvelope := fun text =>
      .ok (if text = parseLease.payloadJson then ⟨.requirementParse, workerUuid 2, .null⟩
        else ⟨.build, workerUuid 5, .null⟩)
    decodeParsePayload := fun _ => .ok ⟨originalKey, normalizedKey⟩ }

/-- The answers outside the database while a file is parsed. -/
def parseAnswer : (o : WorkerOp) → Except PyError o.Answer
  | .readBytes _ => .ok comment
  | .publishOrReuseBytes key content _ => .ok ⟨key, content.length, commentSha256⟩
  | .uuids => .ok workerUuid
  | _ => .error (.single .os "")

/-- A file is uploaded and parsed by one process; a build of it is created, and another process
leases it. -/
def workerActions : List WorkersAction :=
  [.api (.upload (workerUuid 1) (workerUuid 2) (workerUuid 3) "requirements.txt" 3
      commentSha256 0 |> SystemAction.request),
    .start 0 "worker-1", .claimNext 0 (workerUuid 4) (fun _ => false) 0, .operate 0 0,
    .answer 0, .answer 0, .answer 0, .operate 0 0,
    .api (.create (workerUuid 1) (workerUuid 2) (some workerProfile) none (workerUuid 5)
      (workerUuid 6) 0 |> SystemAction.request),
    .start 1 "worker-1", .claimNext 1 (workerUuid 7) (fun _ => false) 0]

theorem worker_status_changes_claimed :
    ∃ (s s' : WorkersState) (t t' : BuildTask),
      (workersSystem workerRepository workerEncoder jobsPipeline).Reachable System.Any s ∧
        (workersSystem workerRepository workerEncoder jobsPipeline).step s (.operate 1 0) s' ∧
          s.sys.db.task? (workerUuid 5) = some t ∧ s'.sys.db.task? (workerUuid 5) = some t' ∧
            (t.status, t'.status) = (.queued, .resolving) ∧ StatusChange s.sys.db t t' := by
  have hrun : ((execAllWorkers jobsPipeline parseAnswer workerActions
      ⟨⟨Database.empty, [], [], []⟩, fun _ => none⟩).bind fun s =>
        (execWorkers jobsPipeline parseAnswer s (.operate 1 0)).bind fun s' =>
          (s.sys.db.task? (workerUuid 5)).bind fun t =>
            (s'.sys.db.task? (workerUuid 5)).map fun t' => (t.status, t'.status)) =
      some (.queued, .resolving) := by decide +kernel
  obtain ⟨s, hs, hrun⟩ := Option.bind_eq_some_iff.1 hrun
  obtain ⟨s', hs', hrun⟩ := Option.bind_eq_some_iff.1 hrun
  obtain ⟨t, ht, hrun⟩ := Option.bind_eq_some_iff.1 hrun
  obtain ⟨t', ht', hstatus⟩ := Option.map_eq_some_iff.1 hrun
  have hreach : (workersSystem workerRepository workerEncoder jobsPipeline).Reachable
      System.Any s := ⟨_, rfl, execAllWorkers_steps hs⟩
  have hstep := execWorkers_step hs'
  exact ⟨s, s', t, t', hreach, hstep, ht, ht', hstatus,
    (worker_status_changes hreach hstep rfl ht ht').1⟩

end WheelForge.Worker
