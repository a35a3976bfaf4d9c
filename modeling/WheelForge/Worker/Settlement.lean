import WheelForge.Worker.LeaseRules

/-!
# The blocks of the pipeline

The programs of `_run_parse` and `_run_build` under the conditions of `settling`, block by block:
every part of a `try` block keeps `Underway` or ends in a settled state (`Held`, `FlowPost`), and
every handler turns `Raised` into an `Outcome`, a settled state or an exception that `run` or
`run_once` settles.
-/

set_option autoImplicit false

namespace WheelForge.Worker

open WheelForge.Interaction
open WheelForge.Interaction.Program (Meets meets_op meets_bind meets_attempt meets_handle
  meets_ofExcept)
open WheelForge.Transition
open WheelForge.Jobs
open WheelForge.Parser (ParsedRequirements)
open WheelForge.Resolver (ResolutionResult ResolvedPackage)
open WheelForge.Build (PublishedObject)

/-- The status that `run` returns and the status that its lease committed. -/
structure Agrees (status : BuildStatus) (committed : Option JobStatus) : Prop where
  completed : (status = .success ∨ status = .partialSuccess) ↔ committed = some .completed
  cancelled : status = .cancelled ↔ committed = some .cancelled
  queued : status = .queued ↔ committed = some .ready

theorem agrees_failed {committed : Option JobStatus}
    (h : committed = none ∨ committed = some .failed) : Agrees .failed committed := by
  rcases h with rfl | rfl <;> constructor <;> simp

theorem agrees_completed {status : BuildStatus} (h : status.isPublished = true) :
    Agrees status (some .completed) := by
  cases status with
  | success | partialSuccess => exact ⟨by simp, by simp, by simp⟩
  | _ => cases h

theorem agrees_cancelled : Agrees .cancelled (some .cancelled) := by
  constructor <;> simp

theorem agrees_queued : Agrees .queued (some .ready) := by
  constructor <;> simp

/-- `run` returns `result` in a settled state that agrees with it. -/
structure Concluded (repo : JobRepository) (encode : Api.WireEncoder) (lease : JobLease)
    (t : World) (result : PipelineResult) : Prop extends Issued repo encode lease t where
  settled : Settled lease t
  agrees : Agrees result.status t.committed

/-- An exception that is neither an interrupt, nor lost, nor a cancelled download. -/
def PyError.isPlain (e : PyError) : Bool :=
  !e.containsLostLease && !e.isA .downloadCancelled

section Blocks

variable {repo : JobRepository} {encode : Api.WireEncoder} {lease : JobLease} {w : World}
  {names : List String} {α β : Type}

theorem truthful_plain {e : PyError} (h : e.isPlain = true) : Truthful lease w e := by
  simp only [PyError.isPlain, Bool.and_eq_true, Bool.not_eq_true'] at h
  refine ⟨fun hl => ?_, fun _ hc => ?_⟩
  · rw [h.1] at hl
    cases hl
  · rw [h.2] at hc
    cases hc

theorem wp_raise {e : PyError} (hw : Underway repo encode lease names w)
    (he : Truthful lease w e) {Q : World → α → Prop} :
    Wp repo encode lease (Program.raise e) w (Held repo encode lease Q) :=
  ⟨hw.forget, he⟩

theorem wp_require {condition : Bool} {e : PyError} (hw : Underway repo encode lease names w)
    (he : e.isPlain = true) :
    Wp repo encode lease (require condition e) w
      (Held repo encode lease fun t _ => Underway repo encode lease names t) := by
  unfold require
  split
  · exact hw
  · exact wp_raise hw (truthful_plain he)

theorem wp_ofExcept {result : Except PyError α} (hw : Underway repo encode lease names w)
    (he : ∀ e, result = .error e → e.isPlain = true) :
    Wp repo encode lease (Program.ofExcept result) w
      (Held repo encode lease fun t _ => Underway repo encode lease names t) := by
  cases result with
  | ok a => exact hw
  | error e => exact wp_raise hw (truthful_plain (he e rfl))

theorem wp_validated {result : Except String α} (hw : Underway repo encode lease names w) :
    Wp repo encode lease (validated result) w
      (Held repo encode lease fun t _ => Underway repo encode lease names t) := by
  apply wp_ofExcept hw
  intro e he
  cases result with
  | ok a => cases he
  | error text =>
      cases he
      rfl

theorem wp_parse (pipeline : JobPipeline) {content : Bytes}
    (hw : Underway repo encode lease names w) :
    Wp repo encode lease (pipeline.parse content) w
      (Held repo encode lease fun t _ => Underway repo encode lease names t) := by
  apply wp_ofExcept hw
  intro e he
  cases hp : pipeline.parseRequirements content with
  | ok a =>
      rw [hp] at he
      cases he
  | error text =>
      rw [hp] at he
      cases he
      rfl

theorem wp_requireBeforeDeadline {deadline : Int} (hw : Underway repo encode lease names w) :
    Wp repo encode lease (requireBeforeDeadline deadline) w
      (Held repo encode lease fun t _ => Underway repo encode lease names t) := by
  refine wp_bind (wp_call rfl hw) fun t now ht => ?_
  exact wp_require ht rfl

theorem wp_requireWheelBytes {limits : BuildResourceLimits}
    {wheels : List WheelForge.Build.DownloadedWheel} {total : Nat}
    (hw : Underway repo encode lease names w) :
    Wp repo encode lease (requireWheelBytes limits wheels total) w
      (Held repo encode lease fun t _ => Underway repo encode lease names t) := by
  induction wheels generalizing total w with
  | nil => exact hw
  | cons wheel wheels ih =>
      refine wp_bind (wp_require hw rfl) fun t _ ht => ?_
      refine wp_bind (wp_require ht rfl) fun u _ hu => ?_
      exact ih hu

theorem wp_requireDownloadLimits {wheels : List WheelForge.Build.DownloadedWheel}
    {limits : BuildResourceLimits} (hw : Underway repo encode lease names w) :
    Wp repo encode lease (requireDownloadLimits wheels limits) w
      (Held repo encode lease fun t _ => Underway repo encode lease names t) := by
  refine wp_bind (wp_require hw rfl) fun t _ ht => ?_
  exact wp_requireWheelBytes ht

theorem containsLostLease_pair {message : String} {e e' : PyError}
    (h : (PyError.group message [e, e']).containsLostLease = true) :
    e.containsLostLease = true ∨ e'.containsLostLease = true := by
  obtain ⟨child, hc, hl⟩ := PyError.contains_group.1 h
  rcases List.mem_cons.1 hc with rfl | hc
  · exact Or.inl hl
  · rw [List.mem_singleton.1 hc] at hl
    exact Or.inr hl

/-- A stage under a heartbeat keeps what the stage and the steps beside the worker keep. -/
theorem wp_duringLease {p : WorkerProgram α} {P : World → α → Prop}
    (hp : Wp repo encode lease p w (Held repo encode lease P))
    (hP : ∀ t a, P t a → ∃ names, Underway repo encode lease names t)
    (hstable : ∀ t u a, P t a → Besides repo encode lease t u → P u a) :
    Wp repo encode lease (duringLease lease p) w (Held repo encode lease P) := by
  unfold duringLease
  apply meets_bind.2
  apply meets_attempt.2
  apply hp.mono
  intro t result hresult
  apply meets_bind.2
  apply wp_outside rfl
  intro u r hb hC
  cases result with
  | ok a =>
      obtain ⟨names', ht⟩ := hP t a hresult
      have hu := ht.besides hb
      cases r with
      | error e => exact ⟨hu.forget, (hC e rfl).1⟩
      | ok failure =>
          cases failure with
          | none => exact hstable t u a hresult hb
          | some e => exact ⟨hu.forget, (hC e rfl).1⟩
  | error e =>
      obtain ⟨ht, he⟩ := hresult
      have hu := ht.besides hb
      have he' := he.besides ht hb
      cases r with
      | error e' => exact ⟨hu.forget, (hC e' rfl).1⟩
      | ok failure =>
          cases failure with
          | none => exact ⟨hu, he'⟩
          | some e' =>
              refine ⟨hu, fun hl => ?_, fun _ hc => by cases hc⟩
              rcases containsLostLease_pair hl with hl | hl
              · exact he'.lost hl
              · exact (hC e' rfl).1.lost hl

/-- A stage that is one call. -/
theorem wp_stage {o : WorkerOp} (ho : o.isOutside = true)
    (hw : Underway repo encode lease names w) :
    Wp repo encode lease (duringLease lease (request o)) w
      (Held repo encode lease fun t _ => Underway repo encode lease names t) :=
  wp_duringLease (wp_call ho hw) (fun _ _ ht => ⟨names, ht⟩) fun _ _ _ ht hb => ht.besides hb

/-! ## Cancellation -/

/-- What `_cancel_if_requested` leaves behind; with a requested cancellation it does not return
`None`. -/
def CancelChecked (repo : JobRepository) (encode : Api.WireEncoder) (lease : JobLease)
    (names : List String) (requested : Prop) (t : World) : Option PipelineResult → Prop
  | none => Underway repo encode lease names t ∧ ¬ requested
  | some result => Concluded repo encode lease t result

theorem wp_cancelIfRequested (hty : lease.jobType = .build)
    (hw : Underway repo encode lease names w) :
    Wp repo encode lease (cancelIfRequested lease) w
      (Held repo encode lease (CancelChecked repo encode lease names (Cancelling lease w))) := by
  unfold cancelIfRequested
  refine wp_bind (wp_isCancelRequested hty hw) fun t requested ht => ?_
  obtain ⟨ht, hasked, hcancel⟩ := ht
  cases requested with
  | false => exact ⟨ht, fun hc => nomatch hasked hc⟩
  | true =>
      refine wp_bind (wp_cancelBuild hty ht (hcancel rfl)) fun u done hu => ?_
      cases done with
      | true =>
          obtain ⟨hi, hs, hc⟩ := hu.1 rfl
          refine ⟨hi, hs, ?_⟩
          rw [hc]
          exact agrees_cancelled
      | false =>
          obtain ⟨hu, hs⟩ := hu.2 rfl
          exact ⟨hu, fun _ => hs, fun _ hc => by cases hc⟩

/-- What a part of the block of `_run_build` leaves behind; `P` holds when the block goes on. -/
def FlowPost (repo : JobRepository) (encode : Api.WireEncoder) (lease : JobLease)
    (P : α → World → Prop) (t : World) : Flow α → Prop
  | .finish result => Concluded repo encode lease t result
  | .proceed a => P a t

theorem wp_unlessCancelled (hty : lease.jobType = .build)
    (hw : Underway repo encode lease names w) {rest : WorkerProgram (Flow α)}
    {P : α → World → Prop}
    (hrest : ∀ t, Underway repo encode lease names t →
      Wp repo encode lease rest t (Held repo encode lease (FlowPost repo encode lease P))) :
    Wp repo encode lease (unlessCancelled lease rest) w
      (Held repo encode lease (FlowPost repo encode lease P)) := by
  refine wp_bind (wp_cancelIfRequested hty hw) fun t checked ht => ?_
  cases checked with
  | none => exact hrest t ht.1
  | some result => exact ht

theorem wp_andThen {first : WorkerProgram (Flow α)} {next : α → WorkerProgram (Flow β)}
    {P : α → World → Prop} {Q : β → World → Prop}
    (hfirst : Wp repo encode lease first w (Held repo encode lease (FlowPost repo encode lease P)))
    (hnext : ∀ t a, P a t →
      Wp repo encode lease (next a) t (Held repo encode lease (FlowPost repo encode lease Q))) :
    Wp repo encode lease (Flow.andThen first next) w
      (Held repo encode lease (FlowPost repo encode lease Q)) := by
  refine wp_bind hfirst fun t flow ht => ?_
  cases flow with
  | finish result => exact ht
  | proceed a => exact hnext t a ht

/-! ## The block of `_run_build` -/

theorem wp_prepare (pipeline : JobPipeline) (hty : lease.jobType = .build)
    (hw : Underway repo encode lease [] w) (payload : BuildPayload) (subject : BuildSubject) :
    Wp repo encode lease (pipeline.prepare lease payload subject) w
      (Held repo encode lease (FlowPost repo encode lease fun _ => Underway repo encode lease [])) := by
  unfold JobPipeline.prepare
  refine wp_bind (wp_call rfl hw) fun t limits ht => ?_
  refine wp_bind (wp_call rfl ht) fun t started ht => ?_
  refine wp_bind (wp_require ht rfl) fun t _ ht => ?_
  refine wp_bind (wp_validated ht) fun t target ht => ?_
  refine wp_unlessCancelled hty ht fun t ht => ?_
  refine wp_bind (wp_call rfl ht) fun t original ht => ?_
  refine wp_bind (wp_require ht rfl) fun t _ ht => ?_
  refine wp_bind (wp_parse pipeline ht) fun t originalParsed ht => ?_
  refine wp_bind (wp_call rfl ht) fun t normalized ht => ?_
  refine wp_bind (wp_require ht rfl) fun t _ ht => ?_
  refine wp_bind (wp_parse pipeline ht) fun t parsed ht => ?_
  refine wp_bind (wp_requireBeforeDeadline ht) fun t _ ht => ?_
  refine wp_bind (wp_validated ht) fun t originalText ht => ?_
  exact wp_unlessCancelled hty ht fun t ht => ht

theorem wp_resolveStage (hty : lease.jobType = .build) (hw : Underway repo encode lease [] w)
    (prepared : JobPipeline.PreparedBuild) :
    Wp repo encode lease (JobPipeline.resolveStage lease prepared) w
      (Held repo encode lease (FlowPost repo encode lease fun resolution : ResolutionResult =>
        Underway repo encode lease (resolution.packages.map ResolvedPackage.name))) := by
  unfold JobPipeline.resolveStage
  refine wp_bind (wp_advanceBuild hty hw rfl _ _ _) fun t _ ht => ?_
  refine wp_bind (wp_stage rfl ht) fun t resolution ht => ?_
  refine wp_bind (wp_requireBeforeDeadline ht) fun t _ ht => ?_
  refine wp_bind (wp_require ht rfl) fun t _ ht => ?_
  have hpersist : Wp repo encode lease (duringLease lease (persistResolution lease resolution)) t
      (Held repo encode lease fun t _ => Underway repo encode lease
        (resolution.packages.map ResolvedPackage.name) t) :=
    wp_duringLease (wp_persistResolution hty ht resolution) (fun _ _ ht => ⟨_, ht⟩)
      fun _ _ _ ht hb => ht.besides hb
  refine wp_bind hpersist fun t _ ht => ?_
  exact wp_unlessCancelled hty ht fun t ht => ht

theorem wp_downloadStage (hty : lease.jobType = .build)
    (hw : Underway repo encode lease names w) (prepared : JobPipeline.PreparedBuild)
    (resolution : ResolutionResult) :
    Wp repo encode lease (JobPipeline.downloadStage lease prepared resolution) w
      (Held repo encode lease (FlowPost repo encode lease fun _ => Underway repo encode lease names)) := by
  unfold JobPipeline.downloadStage
  refine wp_bind (wp_advanceBuild hty hw rfl _ _ _) fun t _ ht => ?_
  refine wp_bind (wp_stage rfl ht) fun t download ht => ?_
  refine wp_bind (wp_requireDownloadLimits ht) fun t _ ht => ?_
  refine wp_bind (wp_requireBeforeDeadline ht) fun t _ ht => ?_
  exact wp_unlessCancelled hty ht fun t ht => ht

/-- A terminal failure inside a block. -/
theorem wp_finishFailed {Q : World → Flow α → Prop} (hw : Underway repo encode lease names w)
    (code error : String) (hQ : ∀ t, Concluded repo encode lease t ⟨.failed, none⟩ →
      Q t (.finish ⟨.failed, none⟩)) :
    Wp repo encode lease (do let _ ← failTerminal lease code error; pure (.finish ⟨.failed, none⟩))
      w (Held repo encode lease Q) := by
  apply meets_bind.2
  apply (wp_failTerminal hw.toIssued code error).mono
  rintro t x ⟨⟨b, rfl⟩, hi, hs, hc⟩
  exact hQ t ⟨hi, hs, agrees_failed (hc hw.uncommitted)⟩

theorem wp_validateStage (hty : lease.jobType = .build) (prepared : JobPipeline.PreparedBuild)
    (resolution : ResolutionResult)
    (hw : Underway repo encode lease (resolution.packages.map ResolvedPackage.name) w)
    (download : BuildDownload) :
    Wp repo encode lease (JobPipeline.validateStage lease prepared resolution download) w
      (Held repo encode lease (FlowPost repo encode lease fun _ => Underway repo encode lease [])) := by
  unfold JobPipeline.validateStage
  refine wp_bind (wp_advanceBuild hty hw rfl _ _ _) fun t _ ht => ?_
  refine wp_bind (wp_stage rfl ht) fun t checked ht => ?_
  refine wp_bind (wp_requireBeforeDeadline ht) fun t _ ht => ?_
  refine wp_bind (wp_persistPackageResults hty ht _ _) fun t _ ht => ?_
  refine wp_unlessCancelled hty ht fun t ht => ?_
  split
  · exact wp_finishFailed ht _ _ fun _ h => h
  · exact ht

theorem wp_packageStage (hty : lease.jobType = .build) (hw : Underway repo encode lease names w)
    (prepared : JobPipeline.PreparedBuild) (resolution : ResolutionResult)
    (validation : BuildValidation) :
    Wp repo encode lease (JobPipeline.packageStage lease prepared resolution validation) w
      (Held repo encode lease (FlowPost repo encode lease fun _ => Underway repo encode lease names)) := by
  unfold JobPipeline.packageStage
  refine wp_bind (wp_advanceBuild hty hw rfl _ _ _) fun t _ ht => ?_
  refine wp_bind (wp_call rfl ht) fun t _ ht => ?_
  refine wp_bind (wp_stage rfl ht) fun t built ht => ?_
  refine wp_bind (wp_requireBeforeDeadline ht) fun t _ ht => ?_
  exact wp_unlessCancelled hty ht fun t ht => ht

theorem wp_publishStage (hw : Underway repo encode lease names w)
    (prepared : JobPipeline.PreparedBuild) (validation : BuildValidation)
    (built : BuiltArtifact) :
    Wp repo encode lease (JobPipeline.publishStage lease prepared validation built) w
      (Held repo encode lease (FlowPost repo encode lease fun b : JobPipeline.PublishedBuild => fun t =>
        Underway repo encode lease names t ∧ b.terminal.isPublished = true)) := by
  unfold JobPipeline.publishStage
  refine wp_bind (wp_uuids hw) fun t uuids ht => ?_
  refine wp_bind (wp_call rfl ht) fun t size ht => ?_
  refine wp_bind (wp_require ht rfl) fun t _ ht => ?_
  refine wp_bind (wp_stage rfl ht) fun t published ht => ?_
  refine ⟨ht, ?_⟩
  show BuildStatus.isPublished (if validation.report.complete = true then _ else _) = true
  split <;> rfl

/-- The `try` block of `_run_build` up to the publication. -/
theorem wp_buildArtifact (pipeline : JobPipeline) (hty : lease.jobType = .build)
    (hw : Underway repo encode lease [] w) (payload : BuildPayload) (subject : BuildSubject) :
    Wp repo encode lease (pipeline.buildArtifact lease payload subject) w
      (Held repo encode lease (FlowPost repo encode lease fun b : JobPipeline.PublishedBuild => fun t =>
        Underway repo encode lease [] t ∧ b.terminal.isPublished = true)) := by
  unfold JobPipeline.buildArtifact
  refine wp_andThen (wp_prepare pipeline hty hw payload subject) fun t prepared ht => ?_
  refine wp_andThen (wp_resolveStage hty ht prepared) fun t resolution ht => ?_
  refine wp_andThen (wp_downloadStage hty ht prepared resolution) fun t download ht => ?_
  refine wp_andThen (wp_validateStage hty prepared resolution ht download)
    fun t validation ht => ?_
  refine wp_andThen (wp_packageStage hty ht prepared resolution validation) fun t built ht => ?_
  exact wp_publishStage ht prepared validation built

/-! ## Clean-up -/

/-- A clean-up that raises nothing but interrupts keeps what the steps beside the worker keep. -/
theorem wp_bestEffort_delete (orphan : PublishedObject) {P : World → Prop} (hP : P w)
    (hstable : ∀ t u, P t → Besides repo encode lease t u → P u) :
    Wp repo encode lease
        (bestEffort (request (.deleteIfOwned orphan.objectKey orphan.sha256))) w fun t x =>
      P t ∧ ∀ e, x = .error e → e.isInterrupt = true := by
  unfold bestEffort
  apply meets_handle.2
  apply meets_bind.2
  apply wp_outside rfl
  rintro u (e | deleted) hb hC
  · have hu := hstable w u hP hb
    dsimp only
    split
    · exact ⟨hu, fun _ h => nomatch h⟩
    · next hex =>
      refine ⟨hu, fun e' he' => ?_⟩
      cases he'
      rcases (hC e rfl).2 rfl with h | h
      · exact absurd h hex
      · exact h
  · exact ⟨hstable w u hP hb, fun _ h => nomatch h⟩

/-- The release of the workspace keeps what the steps beside the worker keep, and raises only
exceptions that are no `Exception`. -/
theorem wp_bestEffort {o : WorkerOp} (ho : o.isOutside = true)
    {P : World → Prop} (hP : P w) (hstable : ∀ t u, P t → Besides repo encode lease t u → P u) :
    Wp repo encode lease (bestEffort (request o)) w fun t x =>
      P t ∧ ∀ e, x = .error e → e.isException = false ∧ Truthful lease t e := by
  unfold bestEffort
  apply meets_handle.2
  apply meets_bind.2
  apply wp_outside ho
  rintro u (e | a) hb hC
  · have hu := hstable w u hP hb
    have hfail : failureOf o (.error e) = some e := by cases o <;> rfl
    dsimp only
    split
    · exact ⟨hu, fun _ h => nomatch h⟩
    · next hex =>
      refine ⟨hu, fun e' he' => ?_⟩
      cases he'
      exact ⟨Bool.eq_false_iff.2 hex, (hC e hfail).1⟩
  · exact ⟨hstable w u hP hb, fun _ h => nomatch h⟩

theorem wp_releaseWorkspace {P : World → Prop} (hP : P w)
    (hstable : ∀ t u, P t → Besides repo encode lease t u → P u) :
    Wp repo encode lease JobPipeline.releaseWorkspace w fun t x =>
      P t ∧ ∀ e, x = .error e → e.isException = false ∧ Truthful lease t e := by
  unfold JobPipeline.releaseWorkspace
  apply meets_bind.2
  apply (wp_bestEffort rfl hP hstable).mono
  rintro t (e | _) ⟨ht, he⟩
  · exact ⟨ht, fun e' h => by cases h; exact he e rfl⟩
  · exact wp_bestEffort rfl ht hstable

/-! ## The handlers -/

/-- What a pipeline program leaves behind: a conclusion, an interrupt, or an exception for
`run_once` with nothing committed. -/
def Outcome (repo : JobRepository) (encode : Api.WireEncoder) (lease : JobLease) (t : World) :
    Except PyError PipelineResult → Prop
  | .ok result => Concluded repo encode lease t result
  | .error e => Issued repo encode lease t ∧ (e.isInterrupt = true ∨
      (e.containsLostLease = true → Settled lease t) ∧
      (e.isValueError = true → t.committed = none))

theorem Raised.besides {e : PyError} {t u : World} (h : Raised repo encode lease t e)
    (hb : Besides repo encode lease t u) : Raised repo encode lease u e :=
  ⟨h.underway.besides hb, h.truthful.besides h.underway hb⟩

/-- Both `except BaseException` handlers settle the job. -/
theorem wp_abandon (pipeline : JobPipeline) {published : Option PublishedObject} {e : PyError}
    (hw : Raised repo encode lease w e) :
    Wp repo encode lease (pipeline.abandon lease published e) w (Outcome repo encode lease) := by
  unfold JobPipeline.abandon
  have htail : ∀ t, Raised repo encode lease t e → Wp repo encode lease
      (if e.isInterrupt then Program.raise e
        else if e.containsLostLease then pure ⟨.failed, none⟩
        else do
          let updated ← retryOrFail lease (pipeline.sanitizeError e) e.retryable
          if updated && e.retryable && decide (lease.attempts < lease.maxAttempts) then
            pure ⟨.queued, none⟩
          else pure ⟨.failed, none⟩) t (Outcome repo encode lease) := by
    intro t ht
    split
    · next hint => exact ⟨ht.underway.toIssued, Or.inl hint⟩
    · split
      · next hlost =>
        exact ⟨ht.underway.toIssued, ht.truthful.lost hlost,
          agrees_failed (Or.inl ht.underway.uncommitted)⟩
      · apply meets_bind.2
        apply (wp_retryOrFail ht.underway.toIssued _ _).mono
        rintro u x ⟨b, rfl, hi, hs, hc⟩
        have hcommitted := hc ht.underway.uncommitted
        dsimp only
        cases b with
        | false => exact ⟨hi, hs, agrees_failed (Or.inl hcommitted)⟩
        | true =>
            rw [if_pos rfl] at hcommitted
            rw [Bool.true_and]
            split
            · next hretry =>
              rw [if_pos hretry] at hcommitted
              refine ⟨hi, hs, ?_⟩
              rw [hcommitted]
              exact agrees_queued
            · next hretry =>
              rw [if_neg hretry] at hcommitted
              exact ⟨hi, hs, agrees_failed (Or.inr hcommitted)⟩
  cases published with
  | none => exact htail w hw
  | some orphan =>
      apply meets_bind.2
      apply (wp_bestEffort_delete (P := fun t => Raised repo encode lease t e) orphan hw
        fun _ _ ht hb => ht.besides hb).mono
      rintro t (e' | _) ⟨ht, he'⟩
      · exact ⟨ht.underway.toIssued, Or.inl (he' e' rfl)⟩
      · exact htail t ht

/-- A handler that fails the job for good. -/
theorem wp_terminalFailure {e : PyError} (hw : Raised repo encode lease w e)
    (code error : String) :
    Wp repo encode lease (do let _ ← failTerminal lease code error; pure ⟨.failed, none⟩) w
      (Outcome repo encode lease) := by
  apply meets_bind.2
  apply (wp_failTerminal hw.underway.toIssued code error).mono
  rintro t x ⟨⟨b, rfl⟩, hi, hs, hc⟩
  exact ⟨hi, hs, agrees_failed (hc hw.underway.uncommitted)⟩

theorem wp_parseFailed (pipeline : JobPipeline) {published : Option PublishedObject} {e : PyError}
    (hw : Raised repo encode lease w e) :
    Wp repo encode lease (pipeline.parseFailed lease published e) w
      (Outcome repo encode lease) := by
  unfold JobPipeline.parseFailed
  split
  · exact wp_terminalFailure hw _ _
  · split
    · exact wp_terminalFailure hw _ _
    · exact wp_abandon pipeline hw

theorem outcome_of_raised {e : PyError} (hw : Raised repo encode lease w e) :
    Outcome repo encode lease w (.error e) :=
  ⟨hw.underway.toIssued, Or.inr ⟨hw.truthful.lost, fun _ => hw.underway.uncommitted⟩⟩

theorem wp_buildFailed (pipeline : JobPipeline) (hty : lease.jobType = .build)
    {published : Option PublishedObject} {e : PyError} (hw : Raised repo encode lease w e) :
    Wp repo encode lease (pipeline.buildFailed lease published e) w
      (Outcome repo encode lease) := by
  unfold JobPipeline.buildFailed
  split
  · next hdc =>
    -- a cancelled download was asked for, so the check finds the request or a lost lease
    apply meets_bind.2
    apply (wp_cancelIfRequested hty hw.underway).mono
    rintro t (e' | _ | result) ht
    · exact outcome_of_raised ht
    · exact absurd (hw.truthful.cancelled hty hdc) ht.2
    · exact ht
  · split
    · exact wp_terminalFailure hw _ _
    · exact wp_abandon pipeline hw

/-! ## `_run_parse` -/

theorem wp_publishNormalized (pipeline : JobPipeline) (hw : Underway repo encode lease [] w)
    (payload : RequirementParsePayload) (subject : ParseSubject) :
    Wp repo encode lease (pipeline.publishNormalized lease payload subject) w
      (Held repo encode lease fun t _ => Underway repo encode lease [] t) := by
  unfold JobPipeline.publishNormalized
  refine wp_bind (wp_require hw rfl) fun t _ ht => ?_
  refine wp_bind (wp_call rfl ht) fun t original ht => ?_
  refine wp_bind (wp_require ht rfl) fun t _ ht => ?_
  refine wp_bind (wp_parse pipeline ht) fun t parsed ht => ?_
  have hpublish : ∀ o : WorkerOp, o.isOutside = true → ∀ t, Underway repo encode lease [] t →
      Wp repo encode lease (Program.handle (request o) fun error =>
        if error.isA .fileExists then
          Program.raise (.single .subjectIntegrity
            "normalized requirements object conflicts with parsed content")
        else Program.raise error) t
        (Held repo encode lease fun t _ => Underway repo encode lease [] t) := by
    intro o ho t ht
    apply meets_handle.2
    apply (wp_call ho ht).mono
    rintro u (e | a) hu
    · dsimp only
      split
      · exact wp_raise hu.underway (truthful_plain rfl)
      · exact hu
    · exact hu
  refine wp_bind (hpublish _ rfl t ht) fun t published ht => ?_
  exact ht

theorem wp_recordParse (hty : lease.jobType = .requirementParse)
    (hw : Underway repo encode lease [] w) (subject : ParseSubject) (parsed : ParsedRequirements) :
    Wp repo encode lease (JobPipeline.recordParse lease subject parsed) w
      (Held repo encode lease (Concluded repo encode lease)) := by
  unfold JobPipeline.recordParse
  refine wp_bind (wp_completeParse hty hw parsed _) fun t done ht => ?_
  rcases ht with ⟨rfl, ht, hs⟩ | ⟨rfl, hi, hs, hc⟩
  · exact ⟨ht, fun _ => hs, fun _ hc => by cases hc⟩
  · refine ⟨hi, hs, ?_⟩
    rw [hc]
    exact agrees_completed rfl

theorem wp_runParse (pipeline : JobPipeline) (hty : lease.jobType = .requirementParse)
    (hw : Issued repo encode lease w) (hc : w.committed = none)
    (payload : RequirementParsePayload) :
    Wp repo encode lease (pipeline.runParse lease payload) w (Outcome repo encode lease) := by
  unfold JobPipeline.runParse
  apply meets_bind.2
  apply (wp_claimParseSubject hty hw hc).mono
  rintro t (e | _ | subject) ht
  · obtain ⟨hi, hn, text, rfl⟩ := ht
    exact ⟨hi, Or.inr ⟨(fun hl => by cases hl), fun _ => hn⟩⟩
  · exact ⟨ht.1, ht.2.1, agrees_failed ht.2.2⟩
  · dsimp only
    apply meets_bind.2
    apply meets_attempt.2
    apply (wp_publishNormalized pipeline ht payload subject).mono
    rintro u (e | ⟨parsed, published⟩) hu
    · exact wp_parseFailed pipeline hu
    · apply meets_handle.2
      apply (wp_recordParse hty hu subject parsed).mono
      rintro v (e | result) hv
      · exact wp_parseFailed pipeline hv
      · exact hv

/-! ## `_run_build` -/

theorem Concluded.besides {t u : World} {result : PipelineResult}
    (h : Concluded repo encode lease t result) (hb : Besides repo encode lease t u) :
    Concluded repo encode lease u result := by
  refine ⟨h.toIssued.besides hb, h.settled.besides h.toIssued hb, ?_⟩
  rw [committed_besides hb]
  exact h.agrees

theorem Outcome.besides {t u : World} {x : Except PyError PipelineResult}
    (h : Outcome repo encode lease t x) (hb : Besides repo encode lease t u) :
    Outcome repo encode lease u x := by
  cases x with
  | ok result => exact Concluded.besides h hb
  | error e =>
      obtain ⟨hi, h⟩ := h
      refine ⟨hi.besides hb, ?_⟩
      rcases h with hint | ⟨hlost, hvalue⟩
      · exact Or.inl hint
      · refine Or.inr ⟨fun hl => (hlost hl).besides hi hb, fun hv => ?_⟩
        rw [committed_besides hb]
        exact hvalue hv

/-- The `try` block of `_run_build` after the publication. -/
theorem wp_recordArtifact (hty : lease.jobType = .build) (hw : Underway repo encode lease [] w)
    (b : JobPipeline.PublishedBuild) (hb : b.terminal.isPublished = true) :
    Wp repo encode lease (JobPipeline.recordArtifact lease b) w fun t x =>
      match x with
      | .ok result => Concluded repo encode lease t result
      | .error e => (e.isInterrupt = true ∧ Issued repo encode lease t) ∨
          Raised repo encode lease t e := by
  unfold JobPipeline.recordArtifact
  apply meets_bind.2
  apply (wp_require hw rfl).mono
  rintro t (e | _) ht
  · exact Or.inr ht
  apply meets_bind.2
  apply (wp_cancelIfRequested hty ht).mono
  rintro u (e | _ | result) hu
  · exact Or.inr hu
  · apply meets_bind.2
    apply (wp_call rfl hu.1).mono
    rintro v (e | now) hv
    · exact Or.inr hv
    apply meets_bind.2
    apply (wp_publishArtifactTerminal hty hv _ _ _ hb _).mono
    rintro x (e | _ | artifact) hx
    · exact Or.inr hx
    · rcases hx with ⟨-, hx, hs⟩ | ⟨hne, -⟩
      · exact Or.inr ⟨hx, fun _ => hs, fun _ hc => by cases hc⟩
      · cases hne
    · rcases hx with ⟨hne, -⟩ | ⟨-, hi, hs, hc⟩
      · cases hne
      · refine ⟨hi, hs, ?_⟩
        rw [hc]
        exact agrees_completed hb
  · -- the job is cancelled; the clean-up can only be interrupted
    apply meets_bind.2
    apply (wp_bestEffort_delete (P := fun t => Concluded repo encode lease t result) b.published
      hu fun _ _ h hb => h.besides hb).mono
    rintro v (e | _) ⟨hv, he⟩
    · exact Or.inl ⟨he e rfl, hv.toIssued⟩
    · exact hv

theorem Outcome.issued {x : Except PyError PipelineResult}
    (h : Outcome repo encode lease w x) : Issued repo encode lease w := by
  cases x with
  | ok result => exact Concluded.toIssued h
  | error e => exact h.1

theorem PyError.isException_of_isValueError {e : PyError} (h : e.isValueError = true) :
    e.isException = true := by
  cases e with
  | single kind text => cases kind <;> first | rfl | cases h
  | group message children => cases h

/-- The `finally` block keeps the outcome, or replaces it by an exception for `run_once`. -/
theorem wp_finally {body : WorkerProgram PipelineResult}
    (hbody : Wp repo encode lease body w (Outcome repo encode lease)) :
    Wp repo encode lease (tryFinally body JobPipeline.releaseWorkspace) w
      (Outcome repo encode lease) := by
  unfold tryFinally
  apply meets_bind.2
  apply meets_attempt.2
  apply hbody.mono
  intro t x hx
  apply meets_bind.2
  apply (wp_releaseWorkspace (P := fun t => Outcome repo encode lease t x) hx
    fun _ _ h hb => h.besides hb).mono
  rintro u (e | _) ⟨hu, he⟩
  · obtain ⟨hex, htruth⟩ := he e rfl
    refine ⟨hu.issued, Or.inr ⟨htruth.lost, fun hv => ?_⟩⟩
    rw [PyError.isException_of_isValueError hv] at hex
    cases hex
  · exact meets_ofExcept.2 hu

theorem PyError.not_isA_of_isInterrupt {e : PyError} (h : e.isInterrupt = true)
    {kind : ErrorClass} (h₁ : kind ≠ .keyboardInterrupt) (h₂ : kind ≠ .systemExit) :
    e.isA kind = false := by
  cases e with
  | group message children => rfl
  | single k text =>
      apply decide_eq_false
      rintro rfl
      rcases Bool.or_eq_true_iff.1 h with h | h
      · exact h₁ (of_decide_eq_true h)
      · exact h₂ (of_decide_eq_true h)

/-- An interrupt during the clean-up of a cancelled build. -/
theorem wp_buildInterrupted (pipeline : JobPipeline) {published : Option PublishedObject}
    {e : PyError} (hw : Issued repo encode lease w) (he : e.isInterrupt = true) :
    Wp repo encode lease (pipeline.buildFailed lease published e) w
      (Outcome repo encode lease) := by
  have hnot : ∀ kind, kind ≠ .keyboardInterrupt → kind ≠ .systemExit → e.isA kind = false :=
    fun kind => PyError.not_isA_of_isInterrupt he
  unfold JobPipeline.buildFailed
  rw [hnot .downloadCancelled nofun nofun, hnot .requirementsParse nofun nofun,
    hnot .wheelArchiveValidation nofun nofun]
  rw [if_neg nofun, if_neg nofun]
  unfold JobPipeline.abandon
  rw [if_pos he]
  cases published with
  | none => exact ⟨hw, Or.inl he⟩
  | some orphan =>
      apply meets_bind.2
      apply (wp_bestEffort_delete (P := Issued repo encode lease) orphan hw
        fun _ _ h hb => h.besides hb).mono
      rintro t (e' | _) ⟨ht, he'⟩
      · exact ⟨ht, Or.inl (he' e' rfl)⟩
      · exact ⟨ht, Or.inl he⟩

/-- The `try` statement of `_run_build`, without its `finally` block. -/
theorem wp_buildBlock (pipeline : JobPipeline) (hty : lease.jobType = .build)
    (hw : Underway repo encode lease [] w) (payload : BuildPayload) (subject : BuildSubject) :
    Wp repo encode lease (pipeline.buildBlock lease payload subject) w
      (Outcome repo encode lease) := by
  unfold JobPipeline.buildBlock
  apply meets_bind.2
  apply meets_attempt.2
  apply (wp_buildArtifact pipeline hty hw payload subject).mono
  rintro t (e | result | b) ht
  · exact wp_buildFailed pipeline hty ht
  · exact ht
  · apply meets_handle.2
    apply (wp_recordArtifact hty ht.1 b ht.2).mono
    rintro u (e | result) hu
    · rcases hu with ⟨hint, hi⟩ | hu
      · exact wp_buildInterrupted pipeline hi hint
      · exact wp_buildFailed pipeline hty hu
    · exact hu

theorem wp_runBuild (pipeline : JobPipeline) (hty : lease.jobType = .build)
    (hw : Issued repo encode lease w) (hc : w.committed = none) (payload : BuildPayload) :
    Wp repo encode lease (pipeline.runBuild lease payload) w (Outcome repo encode lease) := by
  unfold JobPipeline.runBuild
  apply meets_bind.2
  apply (wp_claimBuildSubject hty hw hc).mono
  rintro t (e | _ | subject) ht
  · obtain ⟨hi, hn, text, rfl⟩ := ht
    exact ⟨hi, Or.inr ⟨(fun hl => by cases hl), fun _ => hn⟩⟩
  · exact ⟨ht.1, ht.2.1, agrees_failed ht.2.2⟩
  · dsimp only
    apply meets_bind.2
    apply (wp_call rfl ht).mono
    rintro u (e | _) hu
    · exact outcome_of_raised hu
    · exact wp_finally (wp_buildBlock pipeline hty hu payload subject)

end Blocks

end WheelForge.Worker
