import WheelForge.Worker.Settlement

/-!
# No stuck job

Under the conditions of `settling`, whenever `run_once` returns after it was given a lease, the job
row no longer runs under that lease or the lease had expired, and the status that `run` returns is
the status it committed (`no_stuck_job`). Without the conditions a cancellation that is committed
between the last check of the pipeline and the publication of the artifact leaves the job running
under its lease.
-/

set_option autoImplicit false

namespace WheelForge.Worker

open WheelForge.Interaction
open WheelForge.Interaction.Program (Meets meets_op meets_bind meets_handle meets_ofExcept)
open WheelForge.Transition
open WheelForge.Jobs

section Runs

variable {repo : JobRepository} {encode : Api.WireEncoder} {lease : JobLease} {w : World}
  {α : Type}

/-! ## `run` and `run_once` -/

/-- A validator before anything is claimed. -/
theorem wp_validated_fresh {result : Except String α} {f : α → WorkerProgram PipelineResult}
    (hw : Issued repo encode lease w) (hc : w.committed = none)
    (hf : ∀ a, Wp repo encode lease (f a) w (Outcome repo encode lease)) :
    Wp repo encode lease (validated result >>= f) w (Outcome repo encode lease) := by
  apply meets_bind.2
  apply meets_ofExcept.2
  cases result with
  | ok a => exact hf a
  | error text => exact ⟨hw, Or.inr ⟨(fun hl => by cases hl), fun _ => hc⟩⟩

theorem wp_dispatch (pipeline : JobPipeline) (hw : Issued repo encode lease w)
    (hc : w.committed = none) :
    Wp repo encode lease (pipeline.dispatch lease) w (Outcome repo encode lease) := by
  unfold JobPipeline.dispatch
  apply wp_validated_fresh hw hc
  intro wire
  apply meets_bind.2
  unfold require
  split
  · next henvelope =>
    simp only [Bool.and_eq_true, decide_eq_true_eq] at henvelope
    have hty : wire.jobType = lease.jobType := henvelope.1.1
    rw [Program.meets_pure]
    dsimp only
    split
    · next hparse =>
      apply wp_validated_fresh hw hc
      intro payload
      exact wp_runParse pipeline (hty.symm.trans hparse) hw hc payload
    · next hbuild =>
      apply wp_validated_fresh hw hc
      intro payload
      exact wp_runBuild pipeline (hty.symm.trans hbuild) hw hc payload
  · exact ⟨hw, Or.inr ⟨(fun hl => by cases hl), fun _ => hc⟩⟩

theorem PyError.not_isValueError_of_isInterrupt {e : PyError} (h : e.isInterrupt = true) :
    e.isValueError = false := by
  cases e with
  | group message children => rfl
  | single kind text => cases kind <;> first | rfl | cases h

/-- What `run` leaves behind. -/
def RunPost (repo : JobRepository) (encode : Api.WireEncoder) (lease : JobLease) (t : World) :
    Except PyError PipelineResult → Prop
  | .ok result => Concluded repo encode lease t result
  | .error e => Issued repo encode lease t ∧ (e.isInterrupt = true ∨
      (e.containsLostLease = true → Settled lease t))

theorem wp_run (pipeline : JobPipeline) (hw : Issued repo encode lease w)
    (hc : w.committed = none) :
    Wp repo encode lease (pipeline.run lease) w (RunPost repo encode lease) := by
  unfold JobPipeline.run
  apply meets_handle.2
  apply (wp_dispatch pipeline hw hc).mono
  rintro t (e | result) ht
  · obtain ⟨hi, ht⟩ := ht
    dsimp only
    split
    · next hvalue =>
      -- a `ValueError` that escaped before anything was committed
      rcases ht with hint | ⟨-, hnone⟩
      · rw [PyError.not_isValueError_of_isInterrupt hint] at hvalue
        cases hvalue
      · apply meets_bind.2
        apply (wp_failTerminal hi _ _).mono
        rintro u x ⟨⟨b, rfl⟩, hi', hs, hcommitted⟩
        exact ⟨hi', hs, agrees_failed (hcommitted (hnone hvalue))⟩
    · exact ⟨hi, ht.imp_right And.left⟩
  · exact ht

/-- A step beside the worker is a step of the system, or changes nothing in it. -/
theorem reachable_besides {w' : World} (hw : (jobSystem repo encode).Reachable PipelineUse w.sys)
    (h : Besides repo encode lease w w') :
    (jobSystem repo encode).Reachable PipelineUse w'.sys := by
  induction h with
  | refl => exact hw
  | tail _ hb ih =>
      cases hb with
      | step h hu hown => exact ih.step hu h
      | reading now => exact ih

theorem wp_runOnce (pipeline : JobPipeline) (workerId : String)
    (hw : (jobSystem repo encode).Reachable PipelineUse w.sys) (hc : w.committed = none) :
    Wp repo encode lease (pipeline.runOnce workerId) w fun t x =>
      x = .ok true → Settled lease t := by
  unfold JobPipeline.runOnce
  apply meets_bind.2
  refine meets_op.2 ⟨trivial, fun r w' ht => ?_⟩
  cases ht with
  | idle hb => nofun
  | invalidWorker hw => nofun
  | outside ho => cases ho
  | @claimed w₁ _ locked now s' hb hs hl =>
      have hi : Issued repo encode lease { w₁ with sys := s' } := by
        refine ⟨(reachable_besides hw hb).step
          (a := .claim workerId lease.executionId locked now) trivial hs, ?_⟩
        cases hs
        show lease ∈ addLease _ _
        rw [hl]
        exact List.mem_append_right _ (List.mem_singleton_self lease)
      have hn : ({ w₁ with sys := s' } : World).committed = none :=
        (committed_besides hb).trans hc
      dsimp only
      apply meets_handle.2
      apply meets_bind.2
      apply (wp_run pipeline hi hn).mono
      rintro t (e | result) ht
      · obtain ⟨hi', ht⟩ := ht
        dsimp only
        split
        · nofun
        · next hint =>
          split
          · next hlost =>
            intro _
            rcases ht with h | h
            · exact absurd h hint
            · exact h hlost
          · apply meets_bind.2
            apply (wp_retryOrFail hi' _ _).mono
            rintro u x ⟨b, rfl, -, hs, -⟩ _
            exact hs
      · exact fun _ => ht.settled

end Runs

/-! ## No stuck job -/

/-- The world of a worker before its calls. -/
def World.start (sys : SystemState) : World := ⟨sys, false, none⟩

/-- Under the conditions of `settling`, when `run_once` returns after it was given a lease, the job
row no longer runs under that lease or the lease had expired; and the status that `run` returns is
the one that it committed. -/
theorem no_stuck_job {repo : JobRepository} {encode : Api.WireEncoder} {s : SystemState}
    (hs : (jobSystem repo encode).Reachable PipelineUse s) (pipeline : JobPipeline)
    (lease : JobLease) :
    (∀ workerId t, Program.Run (Answers repo encode lease (settling lease))
        (pipeline.runOnce workerId) (World.start s) (.ok true) t → Settled lease t) ∧
      (lease ∈ s.leases → ∀ result t, Program.Run (Answers repo encode lease (settling lease))
        (pipeline.run lease) (World.start s) (.ok result) t →
          Settled lease t ∧ Agrees result.status t.committed) := by
  constructor
  · intro workerId t hrun
    exact hrun.meets (wp_runOnce pipeline workerId hs rfl) rfl
  · intro hl result t hrun
    have hconcluded : Concluded repo encode lease t result :=
      hrun.meets (wp_run pipeline ⟨hs, hl⟩ rfl)
    exact ⟨hconcluded.settled, hconcluded.agrees⟩

/-! ## One run -/

mutual

/-- `json.dumps(value, separators=(comma, colon))` of a value without escaped characters. -/
def dumps (comma colon : String) : Json → String
  | .null => "null"
  | .bool b => if b then "true" else "false"
  | .number text => text
  | .string s => "\"" ++ s ++ "\""
  | .array items => "[" ++ comma.intercalate (dumpsItems comma colon items) ++ "]"
  | .object fields => "\x7b" ++ comma.intercalate (dumpsFields comma colon fields) ++ "\x7d"

def dumpsItems (comma colon : String) : List Json → List String
  | [] => []
  | item :: items => dumps comma colon item :: dumpsItems comma colon items

def dumpsFields (comma colon : String) : List (String × Json) → List String
  | [] => []
  | (name, value) :: fields =>
      ("\"" ++ name ++ "\"" ++ colon ++ dumps comma colon value) :: dumpsFields comma colon fields

end

def workerUuid (n : Nat) : Uuid := "00000000-0000-4000-8000-00000000000" ++ toString n

/-- The audit of a resolution without attempts. -/
def emptyAudit : Json :=
  .object
    [("version", .number "1"),
      ("totals", .object [("attempts", .number "0"), ("rejections", .number "0")]),
      ("attempts", .array []), ("rejections", .array []),
      ("omitted", .object [("attempts", .number "0"), ("rejections", .number "0")]),
      ("truncated", .object [("observations", .bool false), ("rejections", .number "0")])]

/-- A repository that stores its payloads as JSON texts. -/
def workerRepository : JobRepository :=
  { sampleRepository with
    boundedDatabasePayloadJson := fun value => some (dumps "," ":" value)
    encodeContext := dumps ", " ": "
    jsonLoads := fun _ => some (.object [("audit", emptyAudit)])
    resolutionSummaryAudit := fun _ => some emptyAudit }

/-- `new JobPayload(...)` at the epoch. -/
def workerEncoder : Api.WireEncoder := fun jobType subjectId _ payload =>
  some (.object
    [("schemaVersion", .number "1"),
      ("jobType", .string (match jobType with
        | .requirementParse => "REQUIREMENT_PARSE"
        | .build => "BUILD")),
      ("subjectId", .string subjectId), ("createdAt", .string "1970-01-01T00:00:00Z"),
      ("payload", payload)])

def workerProfile : Api.TargetProfile := { sampleProfile with id := workerUuid 0 }

/-- `# ` and a line feed. -/
def comment : Bytes := [35, 32, 10]

def commentSha256 : String := "5b47c4a3527a4c87fe73e3719b9dcb2a5e2027840664371efd4935bca339e3a1"

def originalKey : String :=
  "users/" ++ workerUuid 1 ++ "/requirements/" ++ workerUuid 2 ++ "/original.txt"

def normalizedKey : String :=
  "users/" ++ workerUuid 1 ++ "/requirements/" ++ workerUuid 2 ++ "/normalized.txt"

/-- The first lease of a job whose payload is `payload`. -/
def firstLease (id : Uuid) (jobType : JobType) (subjectId executionId : Uuid) (payload : Json) :
    JobLease where
  id := id
  jobType := jobType
  subjectId := subjectId
  payloadVersion := 1
  payloadJson := ((workerEncoder jobType subjectId 0 payload).map (dumps "," ":")).getD ""
  workerId := "worker-1"
  executionId := executionId
  attempts := 1
  maxAttempts := 3
  reclaimed := false
  previousExecutionId := none

def parseLease : JobLease :=
  firstLease (workerUuid 3) .requirementParse (workerUuid 2) (workerUuid 4)
    (.object
      [("originalObjectKey", .string originalKey), ("normalizedObjectKey", .string normalizedKey)])

def buildPayload : Json :=
  .object
    [("requirementFileId", .string (workerUuid 2)),
      ("normalizedObjectKey", .string normalizedKey), ("solveMode", .string "COMPATIBLE"),
      ("targetSnapshot", workerProfile.snapshot)]

def buildLease : JobLease :=
  firstLease (workerUuid 6) .build (workerUuid 5) (workerUuid 7) buildPayload

/-- A file that holds one comment is uploaded and parsed, and a build of it is created. -/
def requestedActions : List SystemAction :=
  [.request (.upload (workerUuid 1) (workerUuid 2) (workerUuid 3) "requirements.txt" 3
      commentSha256 0),
    .claim "worker-1" (workerUuid 4) (fun _ => false) 0,
    .operate parseLease 0 .claimParseSubject,
    .operate parseLease 0 (.completeParse ⟨"\n", [], "utf-8"⟩ normalizedKey workerUuid),
    .request (.create (workerUuid 1) (workerUuid 2) (some workerProfile) none (workerUuid 5)
      (workerUuid 6) 0)]

def requestedState : SystemState :=
  (execAll workerRepository workerEncoder PipelineUse requestedActions
    ⟨Database.empty, [], [], []⟩).getD ⟨Database.empty, [], [], []⟩

theorem requestedState_reachable :
    (jobSystem workerRepository workerEncoder).Reachable PipelineUse requestedState := by
  have hrun : (execAll workerRepository workerEncoder PipelineUse requestedActions
      ⟨Database.empty, [], [], []⟩).isSome = true := by decide +kernel
  obtain ⟨s, hs⟩ := Option.isSome_iff_exists.1 hrun
  unfold requestedState
  rw [hs]
  exact ⟨_, rfl, execAll_steps hs⟩

/-- The validators on the build of `requestedActions`. -/
def workerPipeline : JobPipeline where
  decodeEnvelope _ := .ok ⟨.build, workerUuid 5, buildPayload⟩
  decodeParsePayload _ := .error "Field required"
  decodeBuildPayload _ := .ok
    { requirementFileId := workerUuid 2
      normalizedObjectKey := normalizedKey
      solveMode := "COMPATIBLE"
      targetSnapshot := workerProfile.snapshot
      targetProfileId := workerProfile.id }
  validateTarget _ := .ok
    { profileId := workerProfile.id
      profileCode := workerProfile.code
      os := workerProfile.os
      architecture := workerProfile.architecture
      pythonImplementation := workerProfile.pythonImplementation
      pythonVersion := workerProfile.pythonVersion
      pythonFullVersion := workerProfile.pythonFullVersion
      platformTag := workerProfile.platformTag
      abiTags := workerProfile.abiTags
      validationType := workerProfile.validationType
      validationPolicyVersion := workerProfile.validationPolicyVersion
      profileVersion := workerProfile.versionNo }
  parseRequirements _ := .ok ⟨"\n", [], "utf-8"⟩
  decodeRequirements _ := .ok "# \n"
  sha256 _ := commentSha256
  sanitizeError _ := ""

instance (lease : JobLease) : DecidablePred (IsOwnOperation lease)
  | .operate _ _ .heartbeat => .isFalse id
  | .operate l _ .complete | .operate l _ (.retryOrFail _ _ _) | .operate l _ (.failTerminal _ _)
  | .operate l _ .claimParseSubject | .operate l _ (.completeParse _ _ _)
  | .operate l _ .claimBuildSubject | .operate l _ .isCancelRequested | .operate l _ .cancelBuild
  | .operate l _ (.advanceBuild _ _ _ _ _) | .operate l _ (.appendLog _ _ _ _ _)
  | .operate l _ (.persistResolution _ _) | .operate l _ (.persistPackageResults _ _ _ _)
  | .operate l _ (.publishArtifactTerminal _ _ _ _ _) =>
      inferInstanceAs (Decidable (l.executionId = lease.executionId))
  | .claim _ _ _ _ | .request _ | .beginCancel _ _ _ | .matchCancel _ | .finishCancel _
  | .abandonCancel _ => .isFalse id

/-- The steps beside the worker. -/
def BesideWorker (lease : JobLease) (s : SystemState) (a : SystemAction) : Prop :=
  PipelineUse s a ∧ ¬ IsOwnOperation lease a

instance (lease : JobLease) (s : SystemState) (a : SystemAction) :
    Decidable (BesideWorker lease s a) :=
  inferInstanceAs (Decidable (_ ∧ _))

/-- A worker that executes `buildLease` at time zero. Its stages succeed with nothing to download,
and `actions` are performed beside it when it reads the clock for the expiry of the artifact. -/
def answerCall (C : CallCondition) [∀ w now op, Decidable (C.operation w now op)]
    (actions : List SystemAction) (w : World) :
    (o : WorkerOp) → Option (Except PyError o.Answer × World)
  | .claimNext workerId =>
      match exec workerRepository workerEncoder w.sys
        (.claim workerId buildLease.executionId (fun _ => false) 0),
        (workerRepository.claimPass workerId buildLease.executionId (fun _ => false) 0
          w.sys.db).1 with
      | some s', .leased lease =>
          if lease = buildLease then some (.ok (some buildLease), { w with sys := s' }) else none
      | _, _ => none
  | .operate lease op =>
      if lease = buildLease ∧ C.operation w 0 op then
        some (answerOf (transact workerRepository buildLease 0 op w.sys.db),
          w.operated workerRepository buildLease 0 op)
      else none
  | .clock =>
      (execAll workerRepository workerEncoder (BesideWorker buildLease) actions w.sys).map
        fun s' => (.ok (0 : Int), { w with sys := s' })
  | .resourceLimits => some (.ok ⟨500, 1000000, 2000000, 1800, 7⟩, w)
  | .monotonic => some (.ok (0 : Int), w)
  | .uuids => some (.ok fun n => workerUuid (8 + w.sys.db.buildLogs.rows.length + n), w)
  | .stopHeartbeat _ => some (.ok none, w)
  | .readBytes key => some (.ok (if key = originalKey then comment else [10]), w)
  | .publishOrReuseBytes key content _ => some (.ok ⟨key, content.length, commentSha256⟩, w)
  | .publishDescriptor key _ _ => some (.ok ⟨key, 100, commentSha256⟩, w)
  | .deleteIfOwned .. => some (.ok true, w)
  | .allocate _ | .mkdir _ | .cleanupWorkspace | .closeSnapshots => some (.ok (), w)
  | .openRegular _ => some (.ok (100 : Nat), w)
  | .resolve .. => some (.ok ⟨"1", [], [], [], [], some .pypi, 0, false⟩, w)
  | .download .. => some (.ok ⟨[], []⟩, w)
  | .validate .. => some (.ok ⟨[], ⟨[], true, rfl⟩, []⟩, w)
  | .package _ => some (.ok ⟨"artifact/bundle.zip", "bundle.zip", commentSha256⟩, w)

section Replay

variable {C : CallCondition} [∀ w now op, Decidable (C.operation w now op)] {lease : JobLease}
  {actions : List SystemAction}

theorem besides_execAll : ∀ {actions : List SystemAction} {w : World} {s' : SystemState},
    execAll workerRepository workerEncoder (BesideWorker lease) actions w.sys = some s' →
      Besides workerRepository workerEncoder lease w { w with sys := s' }
  | [], w, _, h => by
      cases h
      exact .refl
  | a :: actions, w, s', h => by
      unfold execAll at h
      split at h
      · next hc =>
        obtain ⟨s₁, h₁, h₂⟩ := Option.bind_eq_some_iff.1 h
        have hbeside : Beside workerRepository workerEncoder lease w { w with sys := s₁ } :=
          .step (exec_step h₁) hc.1 hc.2
        have hrest := besides_execAll (w := { w with sys := s₁ }) h₂
        exact Relation.ReflTransGen.head hbeside hrest
      · cases h

/-- The answers of `answerCall` are answers of the world. -/
theorem answers_answerCall (hC : ∀ w o r, failureOf o r = none → C.outcome w o r) {w w' : World}
    {o : WorkerOp} {r : Except PyError o.Answer} (h : answerCall C actions w o = some (r, w')) :
    Answers workerRepository workerEncoder buildLease C w o r w' := by
  cases o with
  | claimNext workerId =>
      dsimp only [answerCall] at h
      split at h
      · next s' lease hs hl =>
        split at h
        · next heq =>
          cases h
          rw [heq] at hl
          exact .claimed .refl (exec_step hs) hl
        · cases h
      · cases h
  | operate lease op =>
      dsimp only [answerCall] at h
      split at h
      · next hop =>
        cases h
        rw [hop.1]
        exact .operate .refl hop.2
      · cases h
  | clock =>
      obtain ⟨s', hs, hr⟩ := Option.map_eq_some_iff.1 h
      cases hr
      exact .outside rfl (besides_execAll hs) (hC _ _ _ rfl)
  | _ =>
      cases h
      exact .outside rfl .refl (hC _ _ _ rfl)

end Replay

instance (lease : JobLease) (w : World) (now : DateTime) (op : LeaseOperation) :
    Decidable ((settling lease).operation w now op) := by
  cases op <;> unfold settling <;> dsimp only <;> infer_instance

instance (w : World) (now : DateTime) (op : LeaseOperation) :
    Decidable (CallCondition.any.operation w now op) := .isTrue trivial

/-- How `run_once` ends: whether it returns `True`, the committed status, whether the lease was
found expired, and whether the job runs under it. -/
def ending (C : CallCondition) [∀ w now op, Decidable (C.operation w now op)]
    (actions : List SystemAction) : Option (Bool × Option JobStatus × Bool × Bool) :=
  (Program.replay (answerCall C actions) (workerPipeline.runOnce "worker-1")
    (World.start requestedState)).map fun x =>
      ((match x.1 with | .ok b => b | .error _ => false), x.2.committed, x.2.expired,
        runsUnder buildLease x.2.sys.db)

theorem run_of_ending {C : CallCondition} [∀ w now op, Decidable (C.operation w now op)]
    (hC : ∀ w o r, failureOf o r = none → C.outcome w o r) {actions : List SystemAction}
    {committed : Option JobStatus} {expired running : Bool}
    (h : ending C actions = some (true, committed, expired, running)) :
    ∃ t, Program.Run (Answers workerRepository workerEncoder buildLease C)
        (workerPipeline.runOnce "worker-1") (World.start requestedState) (.ok true) t ∧
      t.committed = committed ∧ t.expired = expired ∧
        runsUnder buildLease t.sys.db = running := by
  unfold ending at h
  obtain ⟨⟨x, t⟩, hreplay, heq⟩ := Option.map_eq_some_iff.1 h
  have hT : ∀ w o r w', answerCall C actions w o = some (r, w') →
      Answers workerRepository workerEncoder buildLease C w o r w' :=
    fun w o r w' => answers_answerCall hC
  have hrun : Program.Run (Answers workerRepository workerEncoder buildLease C)
      (workerPipeline.runOnce "worker-1") (World.start requestedState) x t := by
    apply Program.replay_run hT
    exact hreplay
  cases x with
  | error e => cases heq
  | ok done =>
      cases heq
      exact ⟨t, hrun, rfl, rfl, rfl⟩

theorem no_stuck_job_published :
    ∃ t, Program.Run (Answers workerRepository workerEncoder buildLease (settling buildLease))
        (workerPipeline.runOnce "worker-1") (World.start requestedState) (.ok true) t ∧
      t.committed = some .completed ∧ Settled buildLease t := by
  have hend : ending (settling buildLease) [] = some (true, some .completed, false, false) := by
    decide +kernel
  have hC : ∀ w o r, failureOf o r = none → (settling buildLease).outcome w o r := by
    intro w o r hr e he
    rw [hr] at he
    cases he
  obtain ⟨t, hrun, hcommitted, -⟩ := run_of_ending hC hend
  obtain ⟨honce, -⟩ := no_stuck_job requestedState_reachable workerPipeline buildLease
  exact ⟨t, hrun, hcommitted, honce _ t hrun⟩

/-- The user cancels the build while it is packaging. -/
def cancelBuildActions : List SystemAction :=
  [.beginCancel (workerUuid 1) (workerUuid 5) 0,
    .matchCancel ⟨workerUuid 1, workerUuid 5, 0, .packaging, none⟩,
    .finishCancel ⟨workerUuid 1, workerUuid 5, 0, .packaging, some []⟩]

/-- A cancellation that is committed after the last check and before the publication: `run_once`
returns, nothing is committed, and the job is still `RUNNING` under a lease that has not expired. -/
theorem stuck_job_cancelled :
    (jobSystem workerRepository workerEncoder).Reachable PipelineUse requestedState ∧
      ∃ t, Program.Run (Answers workerRepository workerEncoder buildLease .any)
          (workerPipeline.runOnce "worker-1") (World.start requestedState) (.ok true) t ∧
        t.committed = none ∧ ¬ Settled buildLease t := by
  have hend : ending .any cancelBuildActions = some (true, none, false, true) := by
    decide +kernel
  obtain ⟨t, hrun, hcommitted, hexpired, hrunning⟩ :=
    run_of_ending (fun _ _ _ _ => trivial) hend
  refine ⟨requestedState_reachable, t, hrun, hcommitted, ?_⟩
  rintro (h | h)
  · rw [hexpired] at h
    cases h
  · rw [hrunning] at h
    cases h

end WheelForge.Worker
