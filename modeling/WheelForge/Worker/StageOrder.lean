import WheelForge.Worker.Workers

/-!
# The order of the stages

`run_once` performs its operations in the order of `Progress` (`follows_runOnce`): it claims the task
once, advances it stage by stage and publishes from the last stage. A program without such an
operation leaves the progress alone (`Keeps`).
-/

set_option autoImplicit false

namespace WheelForge.Worker

open WheelForge.Interaction
open WheelForge.Interaction.Program (attempt handle raise ofExcept meets_op meets_bind
  meets_attempt meets_handle meets_ofExcept)
open WheelForge.Jobs
open WheelForge.Parser (ParsedRequirements)
open WheelForge.Resolver (ResolutionResult)
open WheelForge.Build (DownloadedWheel PublishedObject)

/-- The operations that have a place in the order. -/
def isPlaced : LeaseOperation → Bool
  | .claimBuildSubject | .advanceBuild .. | .publishArtifactTerminal .. => true
  | _ => false

section Rules

variable {lease : JobLease} {g : Progress} {α β : Type}

/-- A postcondition on the values; a failed program still has its lease. -/
def Reaches (lease : JobLease) (P : Progress → α → Prop) : Progress → Except PyError α → Prop
  | g, .ok a => P g a
  | g, .error _ => g.lease? = some lease

variable (lease) in
/-- The program performs no operation that has a place in the order. -/
def Keeps (p : WorkerProgram α) : Prop :=
  ∀ g : Progress, g.lease? = some lease → Follows g p fun g' _ => g' = g

theorem follows_bind {p : WorkerProgram α} {f : α → WorkerProgram β} {P : Progress → α → Prop}
    {Q : Progress → β → Prop} (hp : Follows g p (Reaches lease P))
    (hf : ∀ g' a, P g' a → Follows g' (f a) (Reaches lease Q)) :
    Follows g (p >>= f) (Reaches lease Q) := by
  apply meets_bind.2
  apply hp.mono
  rintro g' (e | a) h
  · exact h
  · exact hf g' a h

theorem keeps_pure (a : α) : Keeps lease (pure a : WorkerProgram α) := fun _ _ => rfl

theorem keeps_raise (e : PyError) : Keeps lease (raise e : WorkerProgram α) := fun _ _ => rfl

theorem keeps_ofExcept (x : Except PyError α) : Keeps lease (ofExcept x : WorkerProgram α) := by
  intro g hg
  exact meets_ofExcept.2 rfl

theorem Keeps.bind {p : WorkerProgram α} {f : α → WorkerProgram β} (hp : Keeps lease p)
    (hf : ∀ a, Keeps lease (f a)) : Keeps lease (p >>= f) := by
  intro g hg
  apply meets_bind.2
  apply (hp g hg).mono
  rintro g' (e | a) rfl
  · rfl
  · exact hf a g' hg

theorem Keeps.attempt {p : WorkerProgram α} (hp : Keeps lease p) : Keeps lease (attempt p) := by
  intro g hg
  exact meets_attempt.2 (hp g hg)

theorem Keeps.handle {p : WorkerProgram α} {h : PyError → WorkerProgram α} (hp : Keeps lease p)
    (hh : ∀ e, Keeps lease (h e)) : Keeps lease (handle p h) := by
  intro g hg
  apply meets_handle.2
  apply (hp g hg).mono
  rintro g' (e | a) rfl
  · exact hh e g' hg
  · rfl

/-- A program that keeps the progress, before others. -/
theorem Keeps.then {p : WorkerProgram α} {f : α → WorkerProgram β} {Q : Progress → β → Prop}
    (hp : Keeps lease p) (hg : g.lease? = some lease)
    (hf : ∀ a, Follows g (f a) (Reaches lease Q)) : Follows g (p >>= f) (Reaches lease Q) := by
  apply meets_bind.2
  apply (hp g hg).mono
  rintro g' (e | a) rfl
  · exact hg
  · exact hf a

theorem Keeps.follows {p : WorkerProgram α} (hp : Keeps lease p) (hg : g.lease? = some lease) :
    Follows g p (Reaches lease fun g' _ => g' = g) := by
  apply (hp g hg).mono
  rintro g' (e | a) rfl
  · exact hg
  · rfl

theorem keeps_request {o : WorkerOp} (ho : o.isOutside = true) : Keeps lease (request o) := by
  intro g hg
  apply meets_op.2
  constructor
  · cases o <;> trivial
  · rintro r g' rfl
    cases o <;> first | rfl | exact nomatch ho

theorem keeps_operate {op : LeaseOperation} (hu : usedByPipeline lease op = true)
    (hp : isPlaced op = false) : Keeps lease (request (.operate lease op)) := by
  intro g hg
  apply meets_op.2
  constructor
  · refine ⟨hg, hu, ?_⟩
    cases op <;> trivial
  · rintro r g' rfl
    cases op <;> first | rfl | exact nomatch hp

end Rules

/-! ## Programs that keep the progress -/

section Kept

variable {lease : JobLease} {α : Type}

theorem keeps_require (condition : Bool) (e : PyError) : Keeps lease (require condition e) := by
  unfold require
  split
  · exact keeps_pure ()
  · exact keeps_raise e

theorem keeps_validated (result : Except String α) : Keeps lease (validated result) :=
  keeps_ofExcept _

theorem keeps_bestEffort {p : WorkerProgram α} (hp : Keeps lease p) :
    Keeps lease (bestEffort p) := by
  unfold bestEffort
  apply Keeps.handle
  · exact hp.bind fun _ => keeps_pure ()
  · intro e
    split
    · exact keeps_pure ()
    · exact keeps_raise e

theorem keeps_duringLease {p : WorkerProgram α} (hp : Keeps lease p) :
    Keeps lease (duringLease lease p) := by
  unfold duringLease
  apply hp.attempt.bind
  intro result
  apply (keeps_request rfl).bind
  intro failure
  split
  · exact keeps_pure _
  · exact keeps_raise _
  · exact keeps_raise _
  · exact keeps_raise _

theorem keeps_failTerminal (code error : String) : Keeps lease (failTerminal lease code error) :=
  keeps_operate rfl rfl

theorem keeps_retryOrFail (error : String) (retryable : Bool) :
    Keeps lease (retryOrFail lease error retryable) :=
  keeps_operate rfl rfl

theorem keeps_cancelIfRequested (hty : lease.jobType = .build) :
    Keeps lease (cancelIfRequested lease) := by
  have hbuild : decide (lease.jobType = .build) = true := decide_eq_true hty
  unfold cancelIfRequested
  apply (keeps_operate hbuild rfl : Keeps lease (isCancelRequested lease)).bind
  intro requested
  split
  · apply (keeps_operate hbuild rfl : Keeps lease (cancelBuild lease)).bind
    intro cancelled
    split
    · exact keeps_pure _
    · exact keeps_raise _
  · exact keeps_pure none

theorem keeps_unlessCancelled (hty : lease.jobType = .build) {rest : WorkerProgram (Flow α)}
    (hrest : Keeps lease rest) : Keeps lease (unlessCancelled lease rest) := by
  unfold unlessCancelled
  apply (keeps_cancelIfRequested hty).bind
  intro cancelled
  split
  · exact keeps_pure _
  · exact hrest

theorem keeps_requireBeforeDeadline (deadline : Int) :
    Keeps lease (requireBeforeDeadline deadline) := by
  unfold requireBeforeDeadline
  apply (keeps_request rfl).bind
  intro now
  exact keeps_require _ _

theorem keeps_requireWheelBytes (limits : BuildResourceLimits) (wheels : List DownloadedWheel) :
    ∀ total, Keeps lease (requireWheelBytes limits wheels total) := by
  induction wheels with
  | nil => exact fun _ => keeps_pure ()
  | cons wheel wheels ih =>
      intro total
      unfold requireWheelBytes
      apply (keeps_require _ _).bind
      intro _
      apply (keeps_require _ _).bind
      intro _
      exact ih _

theorem keeps_requireDownloadLimits (wheels : List DownloadedWheel) (limits : BuildResourceLimits) :
    Keeps lease (requireDownloadLimits wheels limits) := by
  unfold requireDownloadLimits
  apply (keeps_require _ _).bind
  intro _
  exact keeps_requireWheelBytes _ _ _

theorem keeps_abandon (pipeline : JobPipeline) (published : Option PublishedObject)
    (e : PyError) : Keeps lease (pipeline.abandon lease published e) := by
  unfold JobPipeline.abandon
  have hrest : Keeps lease
      (if e.isInterrupt then raise e
        else if e.containsLostLease then pure ⟨.failed, none⟩
        else do
          let updated ← retryOrFail lease (pipeline.sanitizeError e) e.retryable
          if updated && e.retryable && decide (lease.attempts < lease.maxAttempts) then
            pure ⟨.queued, none⟩
          else pure ⟨.failed, none⟩ : WorkerProgram PipelineResult) := by
    split
    · exact keeps_raise e
    · split
      · exact keeps_pure _
      · apply (keeps_retryOrFail _ _).bind
        intro updated
        split <;> exact keeps_pure _
  cases published with
  | none => exact hrest
  | some orphan => exact (keeps_bestEffort (keeps_request rfl)).bind fun _ => hrest

/-- The outcome of a failure that is recorded at once. -/
theorem keeps_failed (code error : String) (result : α) :
    Keeps lease (do let _ ← failTerminal lease code error; pure result) :=
  (keeps_failTerminal code error).bind fun _ => keeps_pure result

theorem keeps_parseFailed (pipeline : JobPipeline) (published : Option PublishedObject)
    (e : PyError) : Keeps lease (pipeline.parseFailed lease published e) := by
  unfold JobPipeline.parseFailed
  split
  · exact keeps_failed _ _ _
  · split
    · exact keeps_failed _ _ _
    · exact keeps_abandon pipeline published e

theorem keeps_publishNormalized (pipeline : JobPipeline) (payload : RequirementParsePayload)
    (subject : ParseSubject) : Keeps lease (pipeline.publishNormalized lease payload subject) := by
  unfold JobPipeline.publishNormalized
  apply (keeps_require _ _).bind
  intro _
  apply (keeps_request rfl).bind
  intro original
  apply (keeps_require _ _ : Keeps lease (pipeline.requireFileObservation ..)).bind
  intro _
  apply (keeps_ofExcept _ : Keeps lease (pipeline.parse original)).bind
  intro parsed
  apply Keeps.bind
  · apply (keeps_request rfl).handle
    intro e
    split
    · exact keeps_raise _
    · exact keeps_raise e
  · exact fun _ => keeps_pure _

theorem keeps_recordParse (hty : lease.jobType = .requirementParse) (subject : ParseSubject)
    (parsed : ParsedRequirements) :
    Keeps lease (JobPipeline.recordParse lease subject parsed) := by
  have hparse : decide (lease.jobType = .requirementParse) = true := decide_eq_true hty
  unfold JobPipeline.recordParse completeParse
  apply Keeps.bind
  · apply (keeps_request rfl : Keeps lease freshUuids).bind
    intro uuids
    exact keeps_operate hparse rfl
  · intro done
    split
    · exact keeps_pure _
    · exact keeps_raise _

theorem keeps_runParse (pipeline : JobPipeline) (hty : lease.jobType = .requirementParse)
    (payload : RequirementParsePayload) : Keeps lease (pipeline.runParse lease payload) := by
  have hparse : decide (lease.jobType = .requirementParse) = true := decide_eq_true hty
  unfold JobPipeline.runParse
  apply (keeps_operate hparse rfl : Keeps lease (claimParseSubject lease)).bind
  intro subject
  split
  · exact keeps_pure _
  · apply (keeps_publishNormalized pipeline payload _).attempt.bind
    intro result
    split
    · exact keeps_parseFailed pipeline none _
    · apply (keeps_recordParse hty _ _).handle
      intro e
      exact keeps_parseFailed pipeline _ e

theorem keeps_prepare (pipeline : JobPipeline) (hty : lease.jobType = .build)
    (payload : BuildPayload) (subject : BuildSubject) :
    Keeps lease (pipeline.prepare lease payload subject) := by
  unfold JobPipeline.prepare
  apply (keeps_request rfl).bind
  intro limits
  apply (keeps_request rfl).bind
  intro started
  apply (keeps_require _ _).bind
  intro _
  apply (keeps_validated _).bind
  intro target
  apply keeps_unlessCancelled hty
  apply (keeps_request rfl).bind
  intro original
  apply (keeps_require _ _ : Keeps lease (pipeline.requireFileObservation ..)).bind
  intro _
  apply (keeps_ofExcept _ : Keeps lease (pipeline.parse original)).bind
  intro originalParsed
  apply (keeps_request rfl).bind
  intro normalized
  apply (keeps_require _ _).bind
  intro _
  apply (keeps_ofExcept _ : Keeps lease (pipeline.parse normalized)).bind
  intro parsed
  apply (keeps_requireBeforeDeadline _).bind
  intro _
  apply (keeps_validated _).bind
  intro originalText
  exact keeps_unlessCancelled hty (keeps_pure _)

theorem keeps_buildFailed (pipeline : JobPipeline) (hty : lease.jobType = .build)
    (published : Option PublishedObject) (e : PyError) :
    Keeps lease (pipeline.buildFailed lease published e) := by
  unfold JobPipeline.buildFailed
  split
  · apply (keeps_cancelIfRequested hty).bind
    intro cancelled
    split <;> exact keeps_pure _
  · split
    · exact keeps_failed _ _ _
    · exact keeps_abandon pipeline published e

theorem keeps_releaseWorkspace : Keeps lease JobPipeline.releaseWorkspace := by
  unfold JobPipeline.releaseWorkspace
  apply (keeps_bestEffort (keeps_request rfl)).bind
  intro _
  exact keeps_bestEffort (keeps_request rfl)

end Kept

/-! ## The stages of a build -/

section Stages

variable {lease : JobLease} {α β : Type}

/-- The value of a part of a block at `g`, if the block goes on. -/
def Proceeds (lease : JobLease) (g : Progress) (P : α → Prop) : Progress → Flow α → Prop
  | g', .proceed a => g' = g ∧ P a
  | g', .finish _ => g'.lease? = some lease

theorem follows_andThen {g g₁ : Progress} {first : WorkerProgram (Flow α)}
    {next : α → WorkerProgram (Flow β)} {P : α → Prop} {Q : Progress → Flow β → Prop}
    (hfirst : Follows g first (Reaches lease (Proceeds lease g₁ P)))
    (hfinish : ∀ g' result, g'.lease? = some lease → Q g' (.finish result))
    (hnext : ∀ a, P a → Follows g₁ (next a) (Reaches lease Q)) :
    Follows g (Flow.andThen first next) (Reaches lease Q) := by
  unfold Flow.andThen
  apply follows_bind hfirst
  intro g' flow hflow
  cases flow with
  | finish result => exact hfinish g' result hflow
  | proceed a =>
      obtain ⟨rfl, ha⟩ := hflow
      exact hnext a ha

/-- A part of a block without placed operations. -/
theorem follows_kept {g : Progress} {p : WorkerProgram (Flow α)} (hp : Keeps lease p)
    (hg : g.lease? = some lease) :
    Follows g p (Reaches lease (Proceeds lease g fun _ => True)) := by
  apply (hp.follows hg).mono
  rintro g' (e | flow) h
  · exact h
  · obtain rfl : g' = g := h
    cases flow with
    | finish result => exact hg
    | proceed a => exact ⟨rfl, trivial⟩

theorem follows_advanceBuild (hty : lease.jobType = .build) {stage status : BuildStatus}
    (hs : BuildStatus.isStage status = true)
    (ha : stage = status ∨ Api.isAllowed stage status = true) (progress : Int)
    (name message : String) :
    Follows (.inStage lease stage) (advanceBuild lease status progress name message)
      (Reaches lease fun g' _ => g' = .inStage lease status) := by
  unfold advanceBuild
  apply (keeps_request rfl : Keeps lease freshUuids).then rfl
  intro uuids
  apply meets_op.2
  constructor
  · refine ⟨rfl, ?_, lease, stage, rfl, ha⟩
    show (decide (lease.jobType = .build) && BuildStatus.isStage status) = true
    rw [hs, decide_eq_true hty]
    rfl
  · rintro (e | u) g' rfl
    · rfl
    · rfl

/-- A stage advances the task and keeps the progress from there on. -/
theorem follows_stage (hty : lease.jobType = .build) {stage status : BuildStatus}
    (hs : BuildStatus.isStage status = true)
    (ha : stage = status ∨ Api.isAllowed stage status = true) {progress : Int}
    {name message : String} {rest : Unit → WorkerProgram (Flow α)}
    (hrest : Keeps lease (rest ())) :
    Follows (.inStage lease stage)
      (advanceBuild lease status progress name message >>= rest)
      (Reaches lease (Proceeds lease (.inStage lease status) fun _ => True)) := by
  apply follows_bind (follows_advanceBuild hty hs ha progress name message)
  rintro g' ⟨⟩ rfl
  exact follows_kept hrest rfl

theorem follows_resolveStage (hty : lease.jobType = .build)
    (prepared : JobPipeline.PreparedBuild) :
    Follows (.inStage lease .resolving) (JobPipeline.resolveStage lease prepared)
      (Reaches lease (Proceeds lease (.inStage lease .resolving) fun _ => True)) := by
  have hbuild : decide (lease.jobType = .build) = true := decide_eq_true hty
  unfold JobPipeline.resolveStage
  apply follows_stage hty rfl (Or.inl rfl)
  apply (keeps_duringLease (keeps_request rfl)).bind
  intro resolution
  apply (keeps_requireBeforeDeadline _).bind
  intro _
  apply (keeps_require _ _).bind
  intro _
  apply Keeps.bind
  · apply keeps_duringLease
    apply (keeps_request rfl : Keeps lease freshUuids).bind
    intro uuids
    exact keeps_operate hbuild rfl
  · intro _
    exact keeps_unlessCancelled hty (keeps_pure _)

theorem follows_downloadStage (hty : lease.jobType = .build)
    (prepared : JobPipeline.PreparedBuild) (resolution : ResolutionResult) :
    Follows (.inStage lease .resolving) (JobPipeline.downloadStage lease prepared resolution)
      (Reaches lease (Proceeds lease (.inStage lease .downloading) fun _ => True)) := by
  unfold JobPipeline.downloadStage
  apply follows_stage hty rfl (Or.inr rfl)
  apply (keeps_duringLease (keeps_request rfl)).bind
  intro download
  apply (keeps_requireDownloadLimits _ _).bind
  intro _
  apply (keeps_requireBeforeDeadline _).bind
  intro _
  exact keeps_unlessCancelled hty (keeps_pure _)

theorem follows_validateStage (hty : lease.jobType = .build)
    (prepared : JobPipeline.PreparedBuild) (resolution : ResolutionResult)
    (download : BuildDownload) :
    Follows (.inStage lease .downloading)
      (JobPipeline.validateStage lease prepared resolution download)
      (Reaches lease (Proceeds lease (.inStage lease .validating) fun _ => True)) := by
  have hbuild : decide (lease.jobType = .build) = true := decide_eq_true hty
  unfold JobPipeline.validateStage
  apply follows_stage hty rfl (Or.inr rfl)
  apply (keeps_duringLease (keeps_request rfl)).bind
  intro checked
  apply (keeps_requireBeforeDeadline _).bind
  intro _
  apply (keeps_operate hbuild rfl : Keeps lease (persistPackageResults lease _ _ _)).bind
  intro _
  apply keeps_unlessCancelled hty
  split
  · exact keeps_failed _ _ _
  · exact keeps_pure _

theorem follows_packageStage (hty : lease.jobType = .build)
    (prepared : JobPipeline.PreparedBuild) (resolution : ResolutionResult)
    (validation : BuildValidation) :
    Follows (.inStage lease .validating)
      (JobPipeline.packageStage lease prepared resolution validation)
      (Reaches lease (Proceeds lease (.inStage lease .packaging) fun _ => True)) := by
  unfold JobPipeline.packageStage
  apply follows_stage hty rfl (Or.inr rfl)
  apply (keeps_request rfl).bind
  intro _
  apply (keeps_duringLease (keeps_request rfl)).bind
  intro built
  apply (keeps_requireBeforeDeadline _).bind
  intro _
  exact keeps_unlessCancelled hty (keeps_pure _)

/-- What is published is a success or a partial success. -/
theorem follows_publishStage (prepared : JobPipeline.PreparedBuild) (validation : BuildValidation)
    (built : BuiltArtifact) :
    Follows (.inStage lease .packaging)
      (JobPipeline.publishStage lease prepared validation built)
      (Reaches lease (Proceeds lease (.inStage lease .packaging)
        fun b => b.terminal.isPublished = true)) := by
  unfold JobPipeline.publishStage
  apply (keeps_request rfl : Keeps lease freshUuids).then rfl
  intro uuids
  apply (keeps_request rfl).then rfl
  intro size
  apply (keeps_require _ _).then rfl
  intro _
  apply (keeps_duringLease (keeps_request rfl)).then rfl
  intro published
  refine ⟨rfl, ?_⟩
  dsimp only
  split <;> rfl

theorem follows_buildArtifact (pipeline : JobPipeline) (hty : lease.jobType = .build)
    (payload : BuildPayload) (subject : BuildSubject) :
    Follows (.inStage lease .resolving) (pipeline.buildArtifact lease payload subject)
      (Reaches lease (Proceeds lease (.inStage lease .packaging)
        fun b => b.terminal.isPublished = true)) := by
  unfold JobPipeline.buildArtifact
  apply follows_andThen (follows_kept (keeps_prepare pipeline hty payload subject) rfl)
  · exact fun _ _ h => h
  intro prepared _
  apply follows_andThen (follows_resolveStage hty prepared)
  · exact fun _ _ h => h
  intro resolution _
  apply follows_andThen (follows_downloadStage hty prepared resolution)
  · exact fun _ _ h => h
  intro download _
  apply follows_andThen (follows_validateStage hty prepared resolution download)
  · exact fun _ _ h => h
  intro validation _
  apply follows_andThen (follows_packageStage hty prepared resolution validation)
  · exact fun _ _ h => h
  intro built _
  exact follows_publishStage prepared validation built

/-- The artifact is recorded from the last stage. -/
theorem follows_recordArtifact (hty : lease.jobType = .build) {b : JobPipeline.PublishedBuild}
    (hb : b.terminal.isPublished = true) :
    Follows (.inStage lease .packaging) (JobPipeline.recordArtifact lease b)
      (Reaches lease fun g' _ => g'.lease? = some lease) := by
  have hallowed : Api.isAllowed .packaging b.terminal = true := by
    cases hs : b.terminal <;> rw [hs] at hb <;> first | rfl | cases hb
  unfold JobPipeline.recordArtifact
  apply (keeps_require _ _).then rfl
  intro _
  apply (keeps_cancelIfRequested hty).then rfl
  intro cancelled
  split
  · apply (keeps_bestEffort (keeps_request rfl)).then rfl
    intro _
    exact rfl
  · apply (keeps_request rfl).then rfl
    intro now
    apply meets_bind.2
    apply meets_op.2
    constructor
    · refine ⟨rfl, ?_, lease, .packaging, rfl, hallowed⟩
      show (decide (lease.jobType = .build) && b.terminal.isPublished) = true
      rw [hb, decide_eq_true hty]
      rfl
    · rintro (e | artifact) g' rfl
      · rfl
      · cases artifact with
        | none => rfl
        | some artifact => rfl

/-- What a program leaves behind when nothing is known of its progress. -/
def HasLease (lease : JobLease) : Progress → Except PyError α → Prop :=
  fun g _ => g.lease? = some lease

theorem Keeps.hasLease {g : Progress} {p : WorkerProgram α} (hp : Keeps lease p)
    (hg : g.lease? = some lease) : Follows g p (HasLease lease) := by
  apply (hp g hg).mono
  rintro g' x rfl
  exact hg

theorem follows_buildBlock (pipeline : JobPipeline) (hty : lease.jobType = .build)
    (payload : BuildPayload) (subject : BuildSubject) :
    Follows (.inStage lease .resolving) (pipeline.buildBlock lease payload subject)
      (HasLease lease) := by
  unfold JobPipeline.buildBlock
  apply meets_bind.2
  apply meets_attempt.2
  apply (follows_buildArtifact pipeline hty payload subject).mono
  rintro g' (e | flow) h
  · exact (keeps_buildFailed pipeline hty none e).hasLease h
  · cases flow with
    | finish result => exact h
    | proceed b =>
        obtain ⟨rfl, hb⟩ := h
        apply meets_handle.2
        apply (follows_recordArtifact hty hb).mono
        rintro g' (e | result) h
        · exact (keeps_buildFailed pipeline hty _ e).hasLease h
        · exact h

theorem follows_runBuild (pipeline : JobPipeline) (hty : lease.jobType = .build)
    (payload : BuildPayload) :
    Follows (.leased lease) (pipeline.runBuild lease payload) (HasLease lease) := by
  unfold JobPipeline.runBuild
  apply meets_bind.2
  apply meets_op.2
  constructor
  · exact ⟨rfl, decide_eq_true hty, lease, rfl⟩
  rintro (e | (_ | subject)) g' rfl
  · rfl
  · rfl
  · apply meets_bind.2
    apply meets_op.2
    refine ⟨trivial, ?_⟩
    rintro (e | u) g' rfl
    · rfl
    · unfold tryFinally
      apply meets_bind.2
      apply meets_attempt.2
      apply (follows_buildBlock pipeline hty payload subject).mono
      intro g' result hg
      apply (keeps_releaseWorkspace.bind fun _ => keeps_ofExcept result).hasLease
      exact hg

end Stages

/-! ## `run_once` -/

section Runs

variable {lease : JobLease}

theorem follows_dispatch (pipeline : JobPipeline) :
    Follows (.leased lease) (pipeline.dispatch lease) (HasLease lease) := by
  unfold JobPipeline.dispatch
  apply meets_bind.2
  apply (Keeps.follows (keeps_validated _) (g := .leased lease) rfl).mono
  rintro g' (e | wire) h
  · exact h
  obtain rfl : g' = .leased lease := h
  apply meets_bind.2
  unfold require
  split
  · next henvelope =>
    simp only [Bool.and_eq_true, decide_eq_true_eq] at henvelope
    have hty : wire.jobType = lease.jobType := henvelope.1.1
    rw [Program.meets_pure]
    dsimp only
    split
    · next hparse =>
      apply Keeps.hasLease _ rfl
      apply (keeps_validated _).bind
      intro payload
      exact keeps_runParse pipeline (hty.symm.trans hparse) payload
    · next hbuild =>
      apply meets_bind.2
      apply (Keeps.follows (keeps_validated _) (g := .leased lease) rfl).mono
      rintro g' (e | payload) h
      · exact h
      obtain rfl : g' = .leased lease := h
      exact follows_runBuild pipeline (hty.symm.trans hbuild) payload
  · rfl

theorem follows_run (pipeline : JobPipeline) :
    Follows (.leased lease) (pipeline.run lease) (HasLease lease) := by
  unfold JobPipeline.run
  apply meets_handle.2
  apply (follows_dispatch pipeline).mono
  rintro g' (e | result) hg
  · dsimp only
    split
    · exact (keeps_failed _ _ _).hasLease hg
    · exact hg
  · exact hg

/-- `run_once` performs its operations in order. -/
theorem follows_runOnce (pipeline : JobPipeline) (workerId : String) :
    Follows .idle (pipeline.runOnce workerId) fun _ _ => True := by
  unfold JobPipeline.runOnce
  apply meets_bind.2
  apply meets_op.2
  refine ⟨rfl, ?_⟩
  rintro (e | (_ | lease)) g' rfl
  · trivial
  · trivial
  · apply meets_handle.2
    apply meets_bind.2
    apply (follows_run pipeline).mono
    rintro g' (e | result) hg
    · dsimp only
      split
      · trivial
      · split
        · trivial
        · exact (((keeps_retryOrFail _ _).bind fun _ => keeps_pure true) g' hg).mono
            fun _ _ _ => trivial
    · trivial

end Runs

end WheelForge.Worker
