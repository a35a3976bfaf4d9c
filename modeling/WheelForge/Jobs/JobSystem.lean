import WheelForge.Api.BuildTaskService
import WheelForge.Jobs.Operations
import WheelForge.Transition.System

/-!
# Workers and the API on one database

`jobSystem` is the transition system of any number of workers and API requests over the job
database. A step is one committed transaction, a phase of a `cancel` transaction, or the end of one;
a crash, a rollback and a transient database error leave the state as it is. A worker may perform
any operation with any lease that was ever handed out, with any clock reading.

`exec` runs an enabled action, so that concrete runs can be computed (`execAll_steps`).
-/

set_option autoImplicit false

namespace WheelForge.Jobs

open WheelForge.Relational
open WheelForge.Transition
open WheelForge.Api

/-- The committed tables, the leases handed out so far, the executions whose subject claim has
committed, and the `cancel` transactions in progress. -/
structure SystemState where
  db : Database
  leases : List JobLease
  claimed : List Uuid
  cancels : List CancelTransaction

/-- A writing request of the API other than `cancel`. -/
inductive ApiRequest where
  | create (userId fileId : Uuid) (profile : Option TargetProfile) (solveMode : Option String)
      (taskId jobId : Uuid) (now : DateTime)
  | retry (userId sourceId taskId jobId : Uuid) (now : DateTime)
  | delete (userId taskId : Uuid) (now : DateTime)
  | upload (userId fileId jobId : Uuid) (originalName : String) (sizeBytes : Nat)
      (sha256 : String) (now : DateTime)

/-- The database after a request. -/
def ApiRequest.run (encode : WireEncoder) : ApiRequest → Database → Except ApiError Database
  | .create userId fileId profile solveMode taskId jobId now =>
      Api.create encode userId fileId profile solveMode taskId jobId now
  | .retry userId sourceId taskId jobId now => Api.retry encode userId sourceId taskId jobId now
  | .delete userId taskId now => Api.delete userId taskId now
  | .upload userId fileId jobId originalName sizeBytes sha256 now =>
      Api.upload encode userId fileId jobId originalName sizeBytes sha256 now

inductive SystemAction where
  /-- One pass of `claim_next` of a worker. -/
  | claim (workerId : String) (executionId : Uuid) (locked : Uuid → Bool) (now : DateTime)
  /-- An operation with a lease, at the clock reading `now`. -/
  | operate (lease : JobLease) (now : DateTime) (op : LeaseOperation)
  | request (r : ApiRequest)
  | beginCancel (userId taskId : Uuid) (now : DateTime)
  | matchCancel (c : CancelTransaction)
  | finishCancel (c : CancelTransaction)
  | abandonCancel (c : CancelTransaction)

/-- Whether a subject claim commits and returns the subject. -/
def claimsSubject (repo : JobRepository) (lease : JobLease) (now : DateTime) :
    LeaseOperation → Database → Bool
  | .claimParseSubject, db =>
      match repo.claimParseSubject lease now db with
      | .ok (some _, _) => true
      | _ => false
  | .claimBuildSubject, db =>
      match repo.claimBuildSubject lease now db with
      | .ok (some _, _) => true
      | _ => false
  | _, _ => false

/-- The rows that open `cancel` transactions have locked. -/
def lockedRows (s : SystemState) : List Uuid :=
  s.cancels.flatMap fun c => c.matched.getD []

/-- The leases after a pass of `claim_next`. -/
def addLease (leases : List JobLease) : ClaimPass → List JobLease
  | .leased lease => leases ++ [lease]
  | _ => leases

/-- The committed steps of the system. -/
inductive SystemStep (repo : JobRepository) (encode : WireEncoder) :
    SystemState → SystemAction → SystemState → Prop
  | claim {s : SystemState} {workerId : String} {executionId : Uuid} {locked : Uuid → Bool}
      {now : DateTime} (hw : validWorkerId workerId = true)
      (hfresh : executionId ∉ s.leases.map JobLease.executionId)
      (hlocked : ∀ k ∈ lockedRows s, locked k = true) :
      SystemStep repo encode s (.claim workerId executionId locked now)
        { s with
          db := (repo.claimPass workerId executionId locked now s.db).2
          leases := addLease s.leases (repo.claimPass workerId executionId locked now s.db).1 }
  | operate {s : SystemState} {lease : JobLease} {now : DateTime} {op : LeaseOperation}
      (hl : lease ∈ s.leases) :
      SystemStep repo encode s (.operate lease now op)
        { s with
          db := perform repo lease now op s.db
          claimed := if claimsSubject repo lease now op s.db then lease.executionId :: s.claimed
            else s.claimed }
  | request {s : SystemState} {r : ApiRequest} {db' : Database}
      (hr : r.run encode s.db = .ok db') :
      SystemStep repo encode s (.request r) { s with db := db' }
  | beginCancel {s : SystemState} {userId taskId : Uuid} {now : DateTime}
      {c : CancelTransaction} (hc : Api.beginCancel userId taskId now s.db = .ok c) :
      SystemStep repo encode s (.beginCancel userId taskId now)
        { s with cancels := c :: s.cancels }
  | matchCancel {s : SystemState} {c : CancelTransaction} (hc : c ∈ s.cancels)
      (hm : c.matched = none) (hfree : ∀ k ∈ matchReadyJobs c s.db, k ∉ lockedRows s) :
      SystemStep repo encode s (.matchCancel c)
        { s with
          cancels := { c with matched := some (matchReadyJobs c s.db) } :: s.cancels.erase c }
  | finishCancel {s : SystemState} {c : CancelTransaction} {matched : List Uuid} {db' : Database}
      (hc : c ∈ s.cancels) (hm : c.matched = some matched)
      (hf : Api.finishCancel c matched s.db = .ok db') :
      SystemStep repo encode s (.finishCancel c)
        { s with db := db', cancels := s.cancels.erase c }
  | abandonCancel {s : SystemState} {c : CancelTransaction} (hc : c ∈ s.cancels) :
      SystemStep repo encode s (.abandonCancel c) { s with cancels := s.cancels.erase c }

/-- The system of workers and API requests, from an empty database. -/
def jobSystem (repo : JobRepository) (encode : WireEncoder) : System SystemState SystemAction where
  init s := s = ⟨Database.empty, [], [], []⟩
  step := SystemStep repo encode

/-! ## Executing steps -/

/-- The state after an action, when the action is enabled. -/
def exec (repo : JobRepository) (encode : WireEncoder) (s : SystemState) :
    SystemAction → Option SystemState
  | .claim workerId executionId locked now =>
      if validWorkerId workerId = true ∧ executionId ∉ s.leases.map JobLease.executionId ∧
          ∀ k ∈ lockedRows s, locked k = true then
        some { s with
          db := (repo.claimPass workerId executionId locked now s.db).2
          leases := addLease s.leases (repo.claimPass workerId executionId locked now s.db).1 }
      else none
  | .operate lease now op =>
      if lease ∈ s.leases then
        some { s with
          db := perform repo lease now op s.db
          claimed := if claimsSubject repo lease now op s.db then lease.executionId :: s.claimed
            else s.claimed }
      else none
  | .request r =>
      match r.run encode s.db with
      | .ok db' => some { s with db := db' }
      | .error _ => none
  | .beginCancel userId taskId now =>
      match Api.beginCancel userId taskId now s.db with
      | .ok c => some { s with cancels := c :: s.cancels }
      | .error _ => none
  | .matchCancel c =>
      if c ∈ s.cancels ∧ c.matched = none ∧ ∀ k ∈ matchReadyJobs c s.db, k ∉ lockedRows s then
        some { s with
          cancels := { c with matched := some (matchReadyJobs c s.db) } :: s.cancels.erase c }
      else none
  | .finishCancel c =>
      if c ∈ s.cancels then
        match c.matched with
        | some matched =>
            match Api.finishCancel c matched s.db with
            | .ok db' => some { s with db := db', cancels := s.cancels.erase c }
            | .error _ => none
        | none => none
      else none
  | .abandonCancel c =>
      if c ∈ s.cancels then some { s with cancels := s.cancels.erase c } else none

theorem exec_step {repo : JobRepository} {encode : WireEncoder} {s s' : SystemState}
    {a : SystemAction} (h : exec repo encode s a = some s') : SystemStep repo encode s a s' := by
  cases a with
  | claim workerId executionId locked now =>
      dsimp only [exec] at h
      split at h
      · next hen =>
        cases h
        exact .claim hen.1 hen.2.1 hen.2.2
      · cases h
  | operate lease now op =>
      dsimp only [exec] at h
      split at h
      · next hl =>
        cases h
        exact .operate hl
      · cases h
  | request r =>
      dsimp only [exec] at h
      split at h
      · next hr =>
        cases h
        exact .request hr
      · cases h
  | beginCancel userId taskId now =>
      dsimp only [exec] at h
      split at h
      · next hc =>
        cases h
        exact .beginCancel hc
      · cases h
  | matchCancel c =>
      dsimp only [exec] at h
      split at h
      · next hen =>
        cases h
        exact .matchCancel hen.1 hen.2.1 hen.2.2
      · cases h
  | finishCancel c =>
      dsimp only [exec] at h
      split at h
      · next hc =>
        split at h
        · next hm =>
          split at h
          · next hf =>
            cases h
            exact .finishCancel hc hm hf
          · cases h
        · cases h
      · cases h
  | abandonCancel c =>
      dsimp only [exec] at h
      split at h
      · next hc =>
        cases h
        exact .abandonCancel hc
      · cases h

instance (s : SystemState) (a : SystemAction) : Decidable (System.Any s a) := .isTrue trivial

/-- The state after a list of actions that meet `C`. -/
def execAll (repo : JobRepository) (encode : WireEncoder) (C : SystemState → SystemAction → Prop)
    [∀ s a, Decidable (C s a)] : List SystemAction → SystemState → Option SystemState
  | [], s => some s
  | a :: actions, s =>
      if C s a then (exec repo encode s a).bind (execAll repo encode C actions) else none

section Executed

variable {repo : JobRepository} {encode : WireEncoder} {C : SystemState → SystemAction → Prop}
  [∀ s a, Decidable (C s a)]

/-- An executed list of actions is a run. -/
theorem execAll_steps : ∀ {actions : List SystemAction} {s s' : SystemState},
    execAll repo encode C actions s = some s' → (jobSystem repo encode).Steps C s s'
  | [], _, _, h => by
      cases h
      exact System.Steps.refl _
  | a :: actions, s, s', h => by
      unfold execAll at h
      split at h
      · next hc =>
        obtain ⟨s₁, h₁, h₂⟩ := Option.bind_eq_some_iff.1 h
        exact (System.Steps.single (S := jobSystem repo encode) hc (exec_step h₁)).trans
          (execAll_steps h₂)
      · cases h

/-- The condition only restricts the runs. -/
theorem execAll_any : ∀ {actions : List SystemAction} {s s' : SystemState},
    execAll repo encode C actions s = some s' →
      execAll repo encode System.Any actions s = some s'
  | [], _, _, h => h
  | a :: actions, s, s', h => by
      unfold execAll at h ⊢
      split at h
      · obtain ⟨s₁, h₁, h₂⟩ := Option.bind_eq_some_iff.1 h
        rw [if_pos (show System.Any s a from trivial), h₁]
        exact execAll_any h₂
      · cases h

end Executed

/-- A repository with one-minute leases and plain text functions, to run the system on concrete
inputs. -/
def sampleRepository : JobRepository where
  leaseSeconds := 60
  sanitizeText text limit := String.ofList (text.toList.take limit)
  boundedDatabasePayloadJson _ := some "payload"
  jsonLoads _ := none
  encodeContext _ := "context"
  packageResolutionAudits _ _ := some fun _ => .null
  resolutionSummaryAudit _ := some .null
  leaseSeconds_pos := by decide

/-- The payload is stored as it is. -/
def sampleEncoder : WireEncoder := fun _ _ _ payload => some payload

/-- A lease on a job of `sampleRepository`. -/
def sampleLease (id : Uuid) (jobType : JobType) (subjectId : Uuid) (executionId : Uuid)
    (attempts : Nat) (previous : Option Uuid) : JobLease where
  id := id
  jobType := jobType
  subjectId := subjectId
  payloadVersion := 1
  payloadJson := "payload"
  workerId := "w"
  executionId := executionId
  attempts := attempts
  maxAttempts := 3
  reclaimed := previous.isSome
  previousExecutionId := previous

/-- The target profile of the sample builds. -/
def sampleProfile : TargetProfile where
  id := "profile"
  code := "LINUX_X86_64_CP311"
  os := "LINUX"
  architecture := "X86_64"
  pythonImplementation := "CPYTHON"
  pythonVersion := "3.11"
  pythonFullVersion := "3.11.9"
  platformTag := "manylinux2014_x86_64"
  abiTags := ["cp311", "abi3", "none"]
  validationType := "STATIC"
  validationPolicyVersion := "wheel-tags-v1"
  enabled := true
  versionNo := 0

/-- A file is uploaded and parsed, and a build of it is created. -/
def createdActions : List SystemAction :=
  [.request (.upload "u" "f" "p" "requirements.txt" 3 "digest" 0),
    .claim "w" "e0" (fun _ => false) 10,
    .operate (sampleLease "p" .requirementParse "f" "e0" 1 none) 20 .claimParseSubject,
    .operate (sampleLease "p" .requirementParse "f" "e0" 1 none) 30
      (.completeParse ⟨"", [], "utf-8"⟩ "normalized" fun _ => "i"),
    .request (.create "u" "f" (some sampleProfile) none "t" "b" 40)]

/-- The state after a list of actions from the empty system. -/
def sampleState (actions : List SystemAction) : SystemState :=
  (execAll sampleRepository sampleEncoder System.Any actions
    ⟨Database.empty, [], [], []⟩).getD ⟨Database.empty, [], [], []⟩

/-- The state after an executable list of actions is reachable. -/
theorem sampleState_reachable (C : SystemState → SystemAction → Prop) [∀ s a, Decidable (C s a)]
    {actions : List SystemAction}
    (h : (execAll sampleRepository sampleEncoder C actions
      ⟨Database.empty, [], [], []⟩).isSome = true) :
    (jobSystem sampleRepository sampleEncoder).Reachable C (sampleState actions) := by
  obtain ⟨s, hs⟩ := Option.isSome_iff_exists.1 h
  have hstate : sampleState actions = s := by
    unfold sampleState
    rw [execAll_any hs, Option.getD_some]
  rw [hstate]
  exact ⟨_, rfl, execAll_steps hs⟩

/-- An enabled action takes the state after a list of actions to the state after it. -/
theorem sampleState_step {actions : List SystemAction} {a : SystemAction}
    (h : (execAll sampleRepository sampleEncoder System.Any actions
      ⟨Database.empty, [], [], []⟩).isSome = true)
    (ha : (exec sampleRepository sampleEncoder (sampleState actions) a).isSome = true) :
    (jobSystem sampleRepository sampleEncoder).step (sampleState actions) a
      (sampleState (actions ++ [a])) := by
  have happ : ∀ (l : List SystemAction) (s : SystemState),
      execAll sampleRepository sampleEncoder System.Any (l ++ [a]) s =
        (execAll sampleRepository sampleEncoder System.Any l s).bind
          fun s' => exec sampleRepository sampleEncoder s' a := by
    intro l
    induction l with
    | nil =>
        intro s
        show (if System.Any s a then _ else none) = _
        rw [if_pos (show System.Any s a from trivial)]
        show (exec sampleRepository sampleEncoder s a).bind some =
          exec sampleRepository sampleEncoder s a
        exact Option.bind_fun_some _
    | cons b l ih =>
        intro s
        show (if System.Any s b then _ else none) = (if System.Any s b then _ else none).bind _
        rw [if_pos (show System.Any s b from trivial), if_pos (show System.Any s b from trivial),
          Option.bind_assoc]
        exact Option.bind_congr fun s' _ => ih s'
  obtain ⟨s, hs⟩ := Option.isSome_iff_exists.1 h
  have hstate : sampleState actions = s := by
    unfold sampleState
    rw [hs, Option.getD_some]
  rw [hstate] at ha ⊢
  obtain ⟨s', hs'⟩ := Option.isSome_iff_exists.1 ha
  have hnext : sampleState (actions ++ [a]) = s' := by
    unfold sampleState
    rw [happ, hs, Option.bind_some, hs', Option.getD_some]
  rw [hnext]
  exact exec_step hs'

end WheelForge.Jobs
