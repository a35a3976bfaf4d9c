import WheelForge.Jobs.Repository
import WheelForge.Transition.System

/-!
# The build protocol

An abstract account of one build: the status of its job, the lease that holds it, the status and
execution of its task, and the artifacts published for it. The steps say what workers and the API
may do to these values and nothing about rows, clocks or audit data. `buildProtocol` is the protocol
of one build from its absence on; the database system is shown to follow it for every job.

`Consistent` holds after any steps. `Coherent` adds that a ready job has an unclaimed task and a
cancelled job a cancelled task; it holds when every requeue finds the task unclaimed or claimed by
the requeuing execution (`coherent_of_reachable`).
-/

set_option autoImplicit false

namespace WheelForge.Jobs

open WheelForge.Transition

/-- The values of one build that the protocol is about. -/
structure BuildView where
  taskId : Uuid
  jobStatus : JobStatus
  /-- The lease under which the job runs. -/
  holder : Option JobLease
  taskStatus : BuildStatus
  taskExecution : Option Uuid
  cancelRequested : Bool
  deleted : Bool
  artifacts : List ArtifactRow

inductive BuildAction where
  | enqueue (taskId : Uuid)
  | lease (l : JobLease)
  | exhaust
  | requeue (l : JobLease)
  | fail (l : JobLease)
  | claim (l : JobLease)
  | refuseClaim (l : JobLease)
  | advance (l : JobLease) (status : BuildStatus)
  | honourCancel (l : JobLease)
  | publish (l : JobLease) (status : BuildStatus)
  | requestCancel
  | cancelReady
  | delete

/-- The stages that an execution moves its task through. -/
def BuildStatus.isStage : BuildStatus → Bool
  | .resolving | .downloading | .validating | .packaging => true
  | _ => false

namespace BuildView

/-- A new build. -/
def queued (taskId : Uuid) : BuildView where
  taskId := taskId
  jobStatus := .ready
  holder := none
  taskStatus := .queued
  taskExecution := none
  cancelRequested := false
  deleted := false
  artifacts := []

/-- The task after `_terminalize_subject`. -/
def failedStatus (v : BuildView) : BuildStatus :=
  if v.taskStatus.isTerminal then v.taskStatus else .failed

/-- The guard on the task of a subject claim: a first claim, or the claim of the task of the
execution that the lease replaced. -/
def ClaimGuard (v : BuildView) (l : JobLease) : Prop :=
  (l.reclaimed = false ∧ v.taskStatus = .queued ∧ v.taskExecution = none) ∨
    (l.reclaimed = true ∧ v.taskStatus.isNonterminal = true ∧
      l.previousExecutionId.isSome = true ∧ v.taskExecution = l.previousExecutionId)

end BuildView

open BuildView

/-- The steps of one build. -/
inductive BuildStep : BuildView → BuildAction → BuildView → Prop
  | lease {v : BuildView} {l : JobLease}
      (hs : (v.jobStatus = .ready ∧ l.reclaimed = false) ∨
        (v.jobStatus = .running ∧ l.reclaimed = true ∧
          l.previousExecutionId = v.holder.map JobLease.executionId))
      (hfresh : v.taskExecution ≠ some l.executionId) :
      BuildStep v (.lease l) { v with jobStatus := .running, holder := some l }
  | exhaust {v : BuildView} (hs : v.jobStatus = .ready ∨ v.jobStatus = .running) :
      BuildStep v .exhaust
        { v with jobStatus := .failed, holder := none, taskStatus := v.failedStatus }
  | requeue {v : BuildView} {l : JobLease} (hs : v.jobStatus = .running)
      (hl : v.holder = some l) :
      BuildStep v (.requeue l)
        { v with
          jobStatus := .ready
          holder := none
          taskStatus := if v.taskExecution = some l.executionId then .queued else v.taskStatus
          taskExecution :=
            if v.taskExecution = some l.executionId then none else v.taskExecution }
  | fail {v : BuildView} {l : JobLease} (hs : v.jobStatus = .running) (hl : v.holder = some l) :
      BuildStep v (.fail l)
        { v with jobStatus := .failed, holder := none, taskStatus := v.failedStatus }
  | claim {v : BuildView} {l : JobLease} (hs : v.jobStatus = .running) (hl : v.holder = some l)
      (hg : v.ClaimGuard l) (hd : v.deleted = false) :
      BuildStep v (.claim l)
        { v with taskStatus := .resolving, taskExecution := some l.executionId }
  | refuseClaim {v : BuildView} {l : JobLease} (hs : v.jobStatus = .running)
      (hl : v.holder = some l) (hg : v.ClaimGuard l) :
      BuildStep v (.refuseClaim l)
        { v with
          jobStatus := .failed
          holder := none
          taskStatus := .failed
          taskExecution := some l.executionId }
  | advance {v : BuildView} {l : JobLease} {status : BuildStatus} (hs : v.jobStatus = .running)
      (hl : v.holder = some l) (he : v.taskExecution = some l.executionId)
      (ht : v.taskStatus.isTerminal = false) (hstage : BuildStatus.isStage status = true) :
      BuildStep v (.advance l status) { v with taskStatus := status }
  | honourCancel {v : BuildView} {l : JobLease} (hs : v.jobStatus = .running)
      (hl : v.holder = some l) (he : v.taskExecution = some l.executionId)
      (hc : v.cancelRequested = true) :
      BuildStep v (.honourCancel l)
        { v with jobStatus := .cancelled, holder := none, taskStatus := .cancelled }
  | publish {v : BuildView} {l : JobLease} {status : BuildStatus} (row : ArtifactRow)
      (hs : v.jobStatus = .running) (hl : v.holder = some l)
      (he : v.taskExecution = some l.executionId) (hc : v.cancelRequested = false)
      (hp : status.isPublished = true) :
      BuildStep v (.publish l status)
        { v with
          jobStatus := .completed
          holder := none
          taskStatus := status
          artifacts := v.artifacts ++ [row] }
  | requestCancel {v : BuildView} (ht : v.taskStatus.isTerminal = false) :
      BuildStep v .requestCancel { v with cancelRequested := true }
  | cancelReady {v : BuildView} (hs : v.jobStatus = .ready) :
      BuildStep v .cancelReady
        { v with
          jobStatus := .cancelled
          taskStatus := if v.taskStatus = .queued then .cancelled else v.taskStatus
          cancelRequested := if v.taskStatus.isTerminal then v.cancelRequested else true }
  | delete {v : BuildView} : BuildStep v .delete { v with deleted := true }

/-- The protocol of one build, from its absence on. -/
def buildProtocol : System (Option BuildView) BuildAction where
  init v := v = none
  step v a v' :=
    (∃ id, v = none ∧ a = .enqueue id ∧ v' = some (queued id)) ∨
      ∃ w w', v = some w ∧ v' = some w' ∧ BuildStep w a w'

/-- The induction rule for a property of one build along a run. -/
theorem BuildView.preserves {C : Option BuildView → BuildAction → Prop} {P : BuildView → Prop}
    (hstep : ∀ v a w, P v → C (some v) a → BuildStep v a w → P w) {v : BuildView}
    {o : Option BuildView} (h : buildProtocol.Steps C (some v) o) (hv : P v) :
    ∃ w, o = some w ∧ P w := by
  refine h.preserves (P := fun o => ∃ w, o = some w ∧ P w) ?_ ⟨v, rfl, hv⟩
  rintro _ a o' ⟨w, rfl, hw⟩ hc (⟨id, hn, -⟩ | ⟨w₁, w₂, he, rfl, hs⟩)
  · cases hn
  · cases he
    exact ⟨w₂, rfl, hstep w a w₂ hw hc hs⟩

/-- The induction rule for a property of every reachable build. -/
theorem BuildView.invariant {C : Option BuildView → BuildAction → Prop} {P : BuildView → Prop}
    (hinit : ∀ id, P (queued id)) (hstep : ∀ v a w, P v → C (some v) a → BuildStep v a w → P w)
    {v : BuildView} (h : buildProtocol.Reachable C (some v)) : P v := by
  refine h.invariant (P := fun o => ∀ w, o = some w → P w) ?_ ?_ v rfl
  · rintro _ rfl w hw
    cases hw
  · rintro o a o' ho hc (⟨id, rfl, -, rfl⟩ | ⟨w₁, w₂, rfl, rfl, hs⟩) w hw
    · cases hw
      exact hinit id
    · cases hw
      exact hstep w₁ a w₂ (ho w₁ rfl) hc hs

theorem BuildStep.taskId_eq {v w : BuildView} {a : BuildAction} (h : BuildStep v a w) :
    w.taskId = v.taskId := by
  cases h <;> rfl

/-! ## What always holds -/

/-- The relation of job, task and artifacts that every step keeps. -/
structure BuildView.Consistent (v : BuildView) : Prop where
  ready : v.jobStatus = .ready →
    v.taskStatus.isNonterminal = true ∧ v.artifacts = [] ∧ v.holder = none
  running : v.jobStatus = .running →
    v.taskStatus.isNonterminal = true ∧ v.artifacts = [] ∧ ∃ l, v.holder = some l
  completed : v.jobStatus = .completed →
    v.taskStatus.isPublished = true ∧ ∃ row, v.artifacts = [row]
  failed : v.jobStatus = .failed → v.taskStatus = .failed ∧ v.artifacts = []
  cancelled : v.jobStatus = .cancelled →
    (v.taskStatus = .cancelled ∨ v.taskStatus.isNonterminal = true) ∧ v.artifacts = []

theorem queued_consistent (id : Uuid) : (queued id).Consistent where
  ready _ := ⟨rfl, rfl, rfl⟩
  running := nofun
  completed := nofun
  failed := nofun
  cancelled := nofun

theorem failedStatus_of_nonterminal {v : BuildView} (h : v.taskStatus.isNonterminal = true) :
    v.failedStatus = .failed := by
  unfold failedStatus
  rw [BuildStatus.not_isTerminal_of_isNonterminal h]
  rfl

theorem isNonterminal_of_isStage {status : BuildStatus} (h : BuildStatus.isStage status = true) :
    status.isNonterminal = true := by
  cases status <;> first | rfl | cases h

/-- A build whose job has failed together with its task. -/
theorem consistent_failed {v : BuildView} (hj : v.jobStatus = .failed) (ht : v.taskStatus = .failed)
    (ha : v.artifacts = []) : v.Consistent where
  ready h := by rw [hj] at h; cases h
  running h := by rw [hj] at h; cases h
  completed h := by rw [hj] at h; cases h
  failed _ := ⟨ht, ha⟩
  cancelled h := by rw [hj] at h; cases h

/-- A build whose job runs. -/
theorem consistent_running {v : BuildView} {l : JobLease} (hj : v.jobStatus = .running)
    (ht : v.taskStatus.isNonterminal = true) (ha : v.artifacts = []) (hl : v.holder = some l) :
    v.Consistent where
  ready h := by rw [hj] at h; cases h
  running _ := ⟨ht, ha, l, hl⟩
  completed h := by rw [hj] at h; cases h
  failed h := by rw [hj] at h; cases h
  cancelled h := by rw [hj] at h; cases h

theorem consistent_step {v w : BuildView} {a : BuildAction} (hv : v.Consistent)
    (h : BuildStep v a w) : w.Consistent := by
  cases h with
  | lease hs hfresh =>
      rcases hs with ⟨hs, -⟩ | ⟨hs, -⟩
      · exact consistent_running rfl (hv.ready hs).1 (hv.ready hs).2.1 rfl
      · exact consistent_running rfl (hv.running hs).1 (hv.running hs).2.1 rfl
  | exhaust hs =>
      rcases hs with hs | hs
      · exact consistent_failed rfl (failedStatus_of_nonterminal (hv.ready hs).1)
          (hv.ready hs).2.1
      · exact consistent_failed rfl (failedStatus_of_nonterminal (hv.running hs).1)
          (hv.running hs).2.1
  | requeue hs hl =>
      refine
        { ready := fun _ => ⟨?_, (hv.running hs).2.1, rfl⟩
          running := nofun
          completed := nofun
          failed := nofun
          cancelled := nofun }
      dsimp only
      split
      · rfl
      · exact (hv.running hs).1
  | fail hs hl =>
      exact consistent_failed rfl (failedStatus_of_nonterminal (hv.running hs).1)
        (hv.running hs).2.1
  | claim hs hl hg hd => exact consistent_running hs rfl (hv.running hs).2.1 hl
  | refuseClaim hs hl hg => exact consistent_failed rfl rfl (hv.running hs).2.1
  | advance hs hl he ht hstage =>
      exact consistent_running hs (isNonterminal_of_isStage hstage) (hv.running hs).2.1 hl
  | honourCancel hs hl he hc =>
      exact
        { ready := nofun
          running := nofun
          completed := nofun
          failed := nofun
          cancelled := fun _ => ⟨Or.inl rfl, (hv.running hs).2.1⟩ }
  | publish row hs hl he hc hp =>
      refine
        { ready := nofun
          running := nofun
          completed := fun _ => ⟨hp, row, ?_⟩
          failed := nofun
          cancelled := nofun }
      show v.artifacts ++ [row] = [row]
      rw [(hv.running hs).2.1, List.nil_append]
  | requestCancel ht => exact { hv with }
  | cancelReady hs =>
      refine
        { ready := nofun
          running := nofun
          completed := nofun
          failed := nofun
          cancelled := fun _ => ⟨?_, (hv.ready hs).2.1⟩ }
      dsimp only
      split
      · exact Or.inl rfl
      · exact Or.inr (hv.ready hs).1
  | delete => exact { hv with }

theorem consistent_of_reachable {C : Option BuildView → BuildAction → Prop} {v : BuildView}
    (h : buildProtocol.Reachable C (some v)) : v.Consistent :=
  BuildView.invariant queued_consistent (fun _ _ _ hv _ hs => consistent_step hv hs) h

/-- A terminal task status never changes again. -/
theorem terminal_step {v w : BuildView} {a : BuildAction} (hv : v.Consistent)
    (ht : v.taskStatus.isTerminal = true) (h : BuildStep v a w) : w.taskStatus = v.taskStatus := by
  have hlive : ∀ {P : Prop}, v.taskStatus.isNonterminal = true → P := by
    intro P hn
    rw [BuildStatus.not_isTerminal_of_isNonterminal hn] at ht
    cases ht
  cases h with
  | lease | requestCancel | delete => rfl
  | exhaust hs =>
      rcases hs with hs | hs
      · exact hlive (hv.ready hs).1
      · exact hlive (hv.running hs).1
  | requeue hs | fail hs | claim hs | refuseClaim hs | advance hs | honourCancel hs
  | publish row hs => exact hlive (hv.running hs).1
  | cancelReady hs => exact hlive (hv.ready hs).1

/-! ## Cancellation -/

/-- A build with a cancellation request that has not published, with the given artifacts. -/
structure BuildView.Cancelling (artifacts : List ArtifactRow) (v : BuildView) : Prop where
  requested : v.cancelRequested = true
  unpublished : v.taskStatus.isPublished = false
  artifacts_eq : v.artifacts = artifacts

/-- After a cancellation request nothing is published. -/
theorem cancelling_step {rows : List ArtifactRow} {v w : BuildView} {a : BuildAction}
    (hv : v.Cancelling rows) (h : BuildStep v a w) : w.Cancelling rows := by
  obtain ⟨hreq, hpub, hrows⟩ := hv
  have hfailed : v.failedStatus.isPublished = false := by
    unfold failedStatus
    split
    · exact hpub
    · rfl
  cases h with
  | lease | delete => exact ⟨hreq, hpub, hrows⟩
  | exhaust | fail => exact ⟨hreq, hfailed, hrows⟩
  | requeue =>
      refine ⟨hreq, ?_, hrows⟩
      dsimp only
      split
      · rfl
      · exact hpub
  | claim | refuseClaim | honourCancel => exact ⟨hreq, rfl, hrows⟩
  | @advance _ status _ _ _ _ hstage =>
      refine ⟨hreq, ?_, hrows⟩
      cases status <;> first | rfl | cases hstage
  | publish row _ _ _ hc =>
      rw [hreq] at hc
      cases hc
  | requestCancel => exact ⟨rfl, hpub, hrows⟩
  | cancelReady =>
      refine ⟨?_, ?_, hrows⟩
      · dsimp only
        split
        · exact hreq
        · rfl
      · dsimp only
        split
        · rfl
        · exact hpub

/-- A cancelled job stays cancelled, and is neither leased nor claimed. -/
theorem cancelled_step {v w : BuildView} {a : BuildAction} (hv : v.jobStatus = .cancelled)
    (h : BuildStep v a w) :
    w.jobStatus = .cancelled ∧ (∀ l, a ≠ .lease l) ∧ ∀ l, a ≠ .claim l := by
  cases h with
  | lease hs =>
      rcases hs with ⟨hs, -⟩ | ⟨hs, -⟩ <;> rw [hv] at hs <;> cases hs
  | exhaust hs => rcases hs with hs | hs <;> rw [hv] at hs <;> cases hs
  | requeue hs | fail hs | claim hs | refuseClaim hs | advance hs | honourCancel hs
  | publish row hs | cancelReady hs => rw [hv] at hs; cases hs
  | requestCancel | delete => exact ⟨hv, fun _ => nofun, fun _ => nofun⟩

/-! ## What holds when requeues find their own task -/

/-- Every requeue finds the task unclaimed, or claimed by the requeuing execution. -/
def RequeueClaimed : Option BuildView → BuildAction → Prop
  | some v, .requeue l => v.taskExecution = none ∨ v.taskExecution = some l.executionId
  | _, _ => True

/-- The relation of job and task that needs `RequeueClaimed`. -/
structure BuildView.Coherent (v : BuildView) : Prop where
  consistent : v.Consistent
  ready : v.jobStatus = .ready → v.taskStatus = .queued ∧ v.taskExecution = none
  running : v.jobStatus = .running → v.taskExecution = none → v.taskStatus = .queued
  cancelled : v.jobStatus = .cancelled → v.taskStatus = .cancelled

theorem queued_coherent (id : Uuid) : (queued id).Coherent where
  consistent := queued_consistent id
  ready _ := ⟨rfl, rfl⟩
  running := nofun
  cancelled := nofun

theorem coherent_step {v w : BuildView} {a : BuildAction} (hv : v.Coherent)
    (hc : RequeueClaimed (some v) a) (h : BuildStep v a w) : w.Coherent := by
  have hw := consistent_step hv.consistent h
  cases h with
  | lease hs hfresh =>
      refine ⟨hw, nofun, fun _ he => ?_, nofun⟩
      rcases hs with ⟨hs, -⟩ | ⟨hs, -⟩
      · exact (hv.ready hs).1
      · exact hv.running hs he
  | exhaust | fail | refuseClaim | publish =>
      exact ⟨hw, nofun, nofun, nofun⟩
  | @requeue l hs hl =>
      refine ⟨hw, fun _ => ?_, nofun, nofun⟩
      rcases hc with hn | he
      · dsimp only
        rw [hn, if_neg nofun, if_neg nofun]
        exact ⟨hv.running hs hn, rfl⟩
      · dsimp only
        rw [he, if_pos rfl, if_pos rfl]
        exact ⟨rfl, rfl⟩
  | claim hs hl hg hd =>
      exact ⟨hw, fun h => absurd (hs.symm.trans h) nofun, nofun,
        fun h => absurd (hs.symm.trans h) nofun⟩
  | advance hs hl he ht hstage =>
      exact ⟨hw, fun h => absurd (hs.symm.trans h) nofun,
        fun _ hn => absurd (he.symm.trans hn) nofun, fun h => absurd (hs.symm.trans h) nofun⟩
  | honourCancel => exact ⟨hw, nofun, nofun, fun _ => rfl⟩
  | requestCancel | delete => exact ⟨hw, hv.ready, hv.running, hv.cancelled⟩
  | cancelReady hs =>
      refine ⟨hw, nofun, nofun, fun _ => ?_⟩
      dsimp only
      rw [if_pos (hv.ready hs).1]

/-- A takeover finds the task claimed by the execution that it replaces. -/
def TakeoverClaimed : Option BuildView → BuildAction → Prop
  | some v, .lease _ => v.jobStatus = .running →
      v.taskExecution = v.holder.map JobLease.executionId
  | _, _ => True

/-- The lease under which a job runs has claimed the task, or can claim it. -/
structure BuildView.Handshake (v : BuildView) : Prop where
  coherent : v.Coherent
  running : v.jobStatus = .running → ∃ l, v.holder = some l ∧
    (v.taskExecution = some l.executionId ∨ v.ClaimGuard l)

theorem queued_handshake (id : Uuid) : (queued id).Handshake where
  coherent := queued_coherent id
  running := nofun

theorem handshake_step {v w : BuildView} {a : BuildAction} (hv : v.Handshake)
    (ht : TakeoverClaimed (some v) a) (hc : RequeueClaimed (some v) a) (h : BuildStep v a w) :
    w.Handshake := by
  have hw := coherent_step hv.coherent hc h
  cases h with
  | @lease l hs hfresh =>
      refine ⟨hw, fun _ => ⟨l, rfl, Or.inr ?_⟩⟩
      rcases hs with ⟨hs, hl⟩ | ⟨hs, hl, hprev⟩
      · exact Or.inl ⟨hl, hv.coherent.ready hs⟩
      · obtain ⟨hn, -, l₀, hl₀⟩ := hv.coherent.consistent.running hs
        have hx : v.taskExecution = v.holder.map JobLease.executionId := ht hs
        refine Or.inr ⟨hl, hn, ?_, hx.trans hprev.symm⟩
        rw [hprev, hl₀]
        rfl
  | exhaust | fail | refuseClaim | publish | honourCancel | requeue | cancelReady =>
      exact ⟨hw, nofun⟩
  | claim hs hl hg hd => exact ⟨hw, fun _ => ⟨_, hl, Or.inl rfl⟩⟩
  | advance hs hl he ht hstage => exact ⟨hw, fun _ => ⟨_, hl, Or.inl he⟩⟩
  | requestCancel | delete => exact ⟨hw, hv.running⟩

theorem handshake_of_reachable {C : Option BuildView → BuildAction → Prop}
    (hC : ∀ o a, C o a → TakeoverClaimed o a ∧ RequeueClaimed o a) {v : BuildView}
    (h : buildProtocol.Reachable C (some v)) : v.Handshake :=
  BuildView.invariant queued_handshake
    (fun _ _ _ hv hc hs => handshake_step hv (hC _ _ hc).1 (hC _ _ hc).2 hs) h

theorem coherent_of_reachable {v : BuildView}
    (h : buildProtocol.Reachable RequeueClaimed (some v)) : v.Coherent :=
  BuildView.invariant queued_coherent (fun _ _ _ hv hc hs => coherent_step hv hc hs) h

end WheelForge.Jobs
