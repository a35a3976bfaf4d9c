import WheelForge.Worker.World

/-!
# Rules for the calls of a worker

`Underway` is the state of a worker that has claimed its subject and committed nothing yet: as long
as the job runs under the lease, the subject and the recorded packages are its own. It is kept by
whatever happens beside the worker (`Underway.beside`). For each call one rule says what it leaves
behind under the conditions of `settling`.
-/

set_option autoImplicit false

namespace WheelForge.Worker

open WheelForge.Interaction
open WheelForge.Interaction.Program (Meets meets_op)
open WheelForge.Transition
open WheelForge.Jobs
open WheelForge.Parser (ParsedRequirements)
open WheelForge.Resolver (ResolutionResult ResolvedPackage)
open WheelForge.Build (DownloadedWheel PublishedObject)

/-! ## Conditions -/

/-- The exception that a call raises, or the failure that it reports. -/
def failureOf : (o : WorkerOp) → Except PyError o.Answer → Option PyError
  | .stopHeartbeat _, .ok failure => failure
  | _, .ok _ => none
  | _, .error e => some e

/-- The cancellation of the running build is requested. -/
def Cancelling (lease : JobLease) (w : World) : Prop :=
  runsUnder lease w.sys.db = true → cancelFlag lease w.sys.db = true

/-- An exception that tells the truth: it contains a `LostLeaseError` only when the lease is lost,
and is a `DownloadCancelledError` only when the cancellation is requested. -/
structure Truthful (lease : JobLease) (w : World) (e : PyError) : Prop where
  lost : e.containsLostLease = true → Settled lease w
  cancelled : lease.jobType = .build → e.isA .downloadCancelled = true → Cancelling lease w

/-- The clean-up after a failure or a cancellation. -/
def WorkerOp.isDelete : WorkerOp → Bool
  | .deleteIfOwned .. => true
  | _ => false

/-- The conditions under which a worker settles its job: the publication of the artifact under a held
lease finds no requested cancellation, failures are truthful, and the clean-up of an object raises
no other `BaseException` than an interrupt. -/
def settling (lease : JobLease) : CallCondition where
  operation w now op :=
    match op with
    | .publishArtifactTerminal .. =>
        owns w.sys.db lease now = true → cancelFlag lease w.sys.db = false
    | _ => True
  outcome w o r := ∀ e, failureOf o r = some e →
    Truthful lease w e ∧ (o.isDelete = true → e.isException = true ∨ e.isInterrupt = true)

section Invariants

variable {repo : JobRepository} {encode : Api.WireEncoder} {lease : JobLease} {w w' : World}
  {names : List String}

variable (repo encode lease) in
/-- The lease was handed out in the run so far. -/
structure Issued (w : World) : Prop where
  reachable : (jobSystem repo encode).Reachable PipelineUse w.sys
  issued : lease ∈ w.sys.leases

variable (repo encode lease names) in
/-- The subject is claimed, nothing is committed, and the packages `names` are recorded. -/
structure Underway (w : World) : Prop extends Issued repo encode lease w where
  uncommitted : w.committed = none
  subject : runsUnder lease w.sys.db = true → SubjectHeld lease w.sys.db
  packages : lease.jobType = .build → runsUnder lease w.sys.db = true →
    ∀ name ∈ names, w.sys.db.packageCount lease.subjectId name = 1

/-! ## Beside the worker -/

theorem Issued.beside (hw : Issued repo encode lease w) (h : Beside repo encode lease w w') :
    Issued repo encode lease w' := by
  cases h with
  | step h hu hown => exact ⟨hw.reachable.step hu h, leases_step h hw.issued⟩
  | reading now => exact ⟨hw.reachable, hw.issued⟩

theorem Settled.beside (hw : Issued repo encode lease w) (hs : Settled lease w)
    (h : Beside repo encode lease w w') : Settled lease w' := by
  cases h with
  | @step s' a h hu hown =>
      rcases hs with he | hr
      · exact Or.inl he
      · right
        cases hr' : runsUnder lease s'.db with
        | false => rfl
        | true =>
            rw [runsUnder_step h hw.issued hr'] at hr
            cases hr
  | reading now =>
      rcases hs with he | hr
      · left
        show (w.expired || _) = true
        rw [he]
        rfl
      · exact Or.inr hr

theorem committed_beside (h : Beside repo encode lease w w') : w'.committed = w.committed := by
  cases h <;> rfl

theorem Underway.beside (hw : Underway repo encode lease names w)
    (h : Beside repo encode lease w w') : Underway repo encode lease names w' := by
  have hi := hw.toIssued.beside h
  cases h with
  | @step s' a h hu hown =>
      have hwf := wellFormed_of_reachable hw.reachable
      refine ⟨hi, hw.uncommitted, ?_, ?_⟩
      · intro hr
        exact subjectHeld_step hwf h hu hw.issued hr (hw.subject (runsUnder_step h hw.issued hr))
      · intro hty hr name hname
        refine (packageCount_step hwf h hu hw.issued hty hr ?_ name).trans
          (hw.packages hty (runsUnder_step h hw.issued hr) name hname)
        -- an operation of the lease beside the program is a heartbeat
        rintro now op rfl
        cases op with
        | persistResolution | persistPackageResults => exact absurd rfl hown
        | _ => rfl
  | reading now => exact ⟨hi, hw.uncommitted, hw.subject, hw.packages⟩

/-- A requested cancellation stays requested. -/
theorem Cancelling.beside (hw : Underway repo encode lease names w) (hty : lease.jobType = .build)
    (hc : Cancelling lease w) (h : Beside repo encode lease w w') : Cancelling lease w' := by
  intro hr
  cases h with
  | step h hu hown =>
      have hr₀ := runsUnder_step h hw.issued hr
      exact cancelFlag_step (wellFormed_of_reachable hw.reachable) h hu hw.issued hty hr
        (hw.subject hr₀) (hc hr₀)
  | reading now => exact hc hr

theorem Truthful.beside {e : PyError} (hw : Underway repo encode lease names w)
    (he : Truthful lease w e) (h : Beside repo encode lease w w') : Truthful lease w' e where
  lost hl := (he.lost hl).beside hw.toIssued h
  cancelled hty hc := (he.cancelled hty hc).beside hw hty h

/-- Any number of steps beside the worker. -/
abbrev Besides (repo : JobRepository) (encode : Api.WireEncoder) (lease : JobLease) :
    World → World → Prop :=
  Relation.ReflTransGen (Beside repo encode lease)

theorem Issued.besides (hw : Issued repo encode lease w) (h : Besides repo encode lease w w') :
    Issued repo encode lease w' := by
  induction h with
  | refl => exact hw
  | tail _ hb ih => exact ih.beside hb

theorem Settled.besides (hw : Issued repo encode lease w) (hs : Settled lease w)
    (h : Besides repo encode lease w w') : Settled lease w' := by
  induction h with
  | refl => exact hs
  | tail hpre hb ih => exact ih.beside (hw.besides hpre) hb

theorem committed_besides (h : Besides repo encode lease w w') : w'.committed = w.committed := by
  induction h with
  | refl => rfl
  | tail _ hb ih => rw [committed_beside hb, ih]

theorem Underway.besides (hw : Underway repo encode lease names w)
    (h : Besides repo encode lease w w') : Underway repo encode lease names w' := by
  induction h with
  | refl => exact hw
  | tail _ hb ih => exact ih.beside hb

theorem Cancelling.besides (hw : Underway repo encode lease names w)
    (hty : lease.jobType = .build) (hc : Cancelling lease w)
    (h : Besides repo encode lease w w') : Cancelling lease w' := by
  induction h with
  | refl => exact hc
  | tail hpre hb ih => exact ih.beside (hw.besides hpre) hty hb

theorem Truthful.besides {e : PyError} (hw : Underway repo encode lease names w)
    (he : Truthful lease w e) (h : Besides repo encode lease w w') : Truthful lease w' e := by
  induction h with
  | refl => exact he
  | tail hpre hb ih => exact ih.beside (hw.besides hpre) hb

/-- Fewer recorded packages. -/
theorem Underway.forget (hw : Underway repo encode lease names w) :
    Underway repo encode lease [] w where
  toIssued := hw.toIssued
  uncommitted := hw.uncommitted
  subject := hw.subject
  packages _ _ _ h := absurd h List.not_mem_nil

/-- The task of a build that is underway. -/
theorem Underway.task (hw : Underway repo encode lease names w) (hty : lease.jobType = .build)
    (hr : runsUnder lease w.sys.db = true) :
    ∃ t, w.sys.db.task? lease.subjectId = some t ∧ t.executionId = some lease.executionId ∧
      t.status.isNonterminal = true := by
  have hsub := hw.subject hr
  unfold SubjectHeld at hsub
  rw [hty] at hsub
  exact hsub

/-! ## Operations -/

variable {now : DateTime} {op : LeaseOperation}

theorem Issued.operated (hw : Issued repo encode lease w) (hu : usedByPipeline lease op = true) :
    Issued repo encode lease (w.operated repo lease now op) := by
  have hstep : SystemStep repo encode w.sys (.operate lease now op)
      (w.operated repo lease now op).sys := .operate hw.issued
  exact ⟨hw.reachable.step (a := .operate lease now op) hu hstep, leases_step hstep hw.issued⟩

/-- An operation that finds the lease not held settles the question. -/
theorem Issued.settled_of_not_owns (hw : Issued repo encode lease w)
    (ho : owns w.sys.db lease now = false) : Settled lease (w.operated repo lease now op) := by
  have hdb : (w.operated repo lease now op).sys.db = w.sys.db := perform_of_not_owns repo ho op
  cases hr : runsUnder lease w.sys.db with
  | false =>
      right
      rw [hdb]
      exact hr
  | true =>
      left
      obtain ⟨j, hj, hrun, he, howner, expires, hexp⟩ := running_row hw.reachable hw.issued hr
      have hle : expires ≤ now := by
        by_contra hlt
        have howns : owns w.sys.db lease now = true :=
          owns_eq_true_iff.2 ⟨j, hj, hrun, howner, he, expires, hexp, not_le.1 hlt⟩
        rw [ho] at howns
        cases howns
      show (w.expired || expiredAt lease now w.sys.db) = true
      have hat : expiredAt lease now w.sys.db = true := by
        unfold expiredAt
        rw [hj]
        simp [hrun, he, hexp, hle]
      rw [hat, Bool.or_true]

/-- An operation that keeps the database, or the row of the job, commits no status. -/
theorem operated_uncommitted (hw : w.committed = none)
    (h : runsUnder lease w.sys.db = true →
      runsUnder lease (w.operated repo lease now op).sys.db = true) :
    (w.operated repo lease now op).committed = none := by
  show (w.committed <|> settledBy lease w.sys.db (w.operated repo lease now op).sys.db) = none
  rw [hw]
  unfold settledBy
  cases hr : runsUnder lease w.sys.db with
  | false => rfl
  | true =>
      rw [h hr]
      rfl

/-- A job row with another status than `RUNNING` does not run under the lease. -/
theorem runsUnder_of_status {db : Database} {status : JobStatus}
    (hst : db.jobStatus? lease.id = some status) (hne : status ≠ .running) :
    runsUnder lease db = false := by
  cases hr : runsUnder lease db with
  | false => rfl
  | true =>
      obtain ⟨j, hj, hrun, -⟩ := runsUnder_iff.1 hr
      unfold Database.jobStatus? at hst
      rw [hj, Option.map_some, hrun] at hst
      cases hst
      exact absurd rfl hne

theorem settled_of_status {status : JobStatus}
    (hst : w.sys.db.jobStatus? lease.id = some status) (hne : status ≠ .running) :
    Settled lease w :=
  Or.inr (runsUnder_of_status hst hne)

/-- An operation that takes the job row out of `RUNNING` commits its status. -/
theorem operated_committed (hw : w.committed = none) (ho : owns w.sys.db lease now = true)
    {status : JobStatus}
    (hst : (w.operated repo lease now op).sys.db.jobStatus? lease.id = some status)
    (hne : status ≠ .running) : (w.operated repo lease now op).committed = some status ∧
      Settled lease (w.operated repo lease now op) := by
  obtain ⟨j, hj⟩ := owns_eq_true_iff.1 ho
  have hsettled : Settled lease (w.operated repo lease now op) := settled_of_status hst hne
  have hafter : runsUnder lease (w.operated repo lease now op).sys.db = false :=
    runsUnder_of_status hst hne
  refine ⟨?_, hsettled⟩
  show (w.committed <|> settledBy lease w.sys.db (w.operated repo lease now op).sys.db) = _
  rw [hw]
  unfold settledBy
  rw [runsUnder_of_owned hj, hafter]
  exact hst

/-- An operation that ends without changing the database. -/
theorem Underway.operated_same (hw : Underway repo encode lease names w)
    (hu : usedByPipeline lease op = true) (hdb : perform repo lease now op w.sys.db = w.sys.db) :
    Underway repo encode lease names (w.operated repo lease now op) where
  toIssued := hw.toIssued.operated hu
  uncommitted := operated_uncommitted hw.uncommitted fun hr => by
    show runsUnder lease (perform repo lease now op w.sys.db) = true
    rw [hdb]
    exact hr
  subject := by
    show runsUnder lease (perform repo lease now op w.sys.db) = true →
      SubjectHeld lease (perform repo lease now op w.sys.db)
    rw [hdb]
    exact hw.subject
  packages := by
    show _ → runsUnder lease (perform repo lease now op w.sys.db) = true → ∀ name ∈ names,
      (perform repo lease now op w.sys.db).packageCount lease.subjectId name = 1
    rw [hdb]
    exact hw.packages

/-- An operation after which the job still runs. -/
theorem Underway.operated_running (hw : Underway repo encode lease names w)
    (hu : usedByPipeline lease op = true)
    (hr : runsUnder lease (perform repo lease now op w.sys.db) = true) {names' : List String}
    (hp : lease.jobType = .build → ∀ name ∈ names',
      (perform repo lease now op w.sys.db).packageCount lease.subjectId name = 1) :
    Underway repo encode lease names' (w.operated repo lease now op) := by
  have hstep : SystemStep repo encode w.sys (.operate lease now op)
      (w.operated repo lease now op).sys := .operate hw.issued
  refine ⟨hw.toIssued.operated hu, operated_uncommitted hw.uncommitted fun _ => hr, ?_, ?_⟩
  · intro hr'
    exact subjectHeld_step (wellFormed_of_reachable hw.reachable) hstep hu hw.issued hr'
      (hw.subject (runsUnder_step hstep hw.issued hr'))
  · intro hty _
    exact hp hty

end Invariants

/-! ## Rules -/

section Rules

variable {repo : JobRepository} {encode : Api.WireEncoder} {lease : JobLease} {w : World}
  {names : List String} {α : Type}

variable (repo encode lease) in
/-- The weakest precondition of a worker program under the conditions of `settling`. -/
abbrev Wp (p : WorkerProgram α) (w : World) (Q : World → Except PyError α → Prop) : Prop :=
  Meets (fun _ _ => True) (Answers repo encode lease (settling lease)) p w Q

theorem wp_operate {op : LeaseOperation} {Q : World → Except PyError op.Answer → Prop}
    (h : ∀ w₁ now, Besides repo encode lease w w₁ → (settling lease).operation w₁ now op →
      Q (w₁.operated repo lease now op) (answerOf (transact repo lease now op w₁.sys.db))) :
    Wp repo encode lease (request (.operate lease op)) w Q := by
  refine meets_op.2 ⟨trivial, fun r w' ht => ?_⟩
  cases ht with
  | operate hb hC => exact h _ _ hb hC
  | outside ho => cases ho

theorem wp_outside {o : WorkerOp} (ho : o.isOutside = true)
    {Q : World → Except PyError o.Answer → Prop}
    (h : ∀ w₁ r, Besides repo encode lease w w₁ → (settling lease).outcome w₁ o r → Q w₁ r) :
    Wp repo encode lease (request o) w Q := by
  refine meets_op.2 ⟨trivial, fun r w' ht => ?_⟩
  cases ht with
  | claimed | idle | invalidWorker | operate => cases ho
  | outside _ hb hC => exact h _ _ hb hC

/-- What a failed program leaves behind. -/
structure Raised (repo : JobRepository) (encode : Api.WireEncoder) (lease : JobLease) (t : World)
    (e : PyError) : Prop where
  underway : Underway repo encode lease [] t
  truthful : Truthful lease t e

/-- The postcondition of a program that commits nothing when it fails. -/
def Held (repo : JobRepository) (encode : Api.WireEncoder) (lease : JobLease)
    (Q : World → α → Prop) : World → Except PyError α → Prop
  | t, .ok a => Q t a
  | t, .error e => Raised repo encode lease t e

/-- An exception of the repository that is no `LostLeaseError`. -/
theorem truthful_repository {e : RepositoryError} (h : e.isLost = true → Settled lease w) :
    Truthful lease w (.ofRepository e) := by
  cases e with
  | lostLease text =>
      refine ⟨fun _ => h rfl, fun _ hc => ?_⟩
      cases hc
  | value text =>
      refine ⟨fun hc => ?_, fun _ hc => ?_⟩
      · cases hc
      · cases hc
  | integrity =>
      refine ⟨fun hc => ?_, fun _ hc => ?_⟩
      · cases hc
      · cases hc

/-- A call outside the database. -/
theorem wp_call {o : WorkerOp} (ho : o.isOutside = true) (hw : Underway repo encode lease names w) :
    Wp repo encode lease (request o) w
      (Held repo encode lease fun t _ => Underway repo encode lease names t) := by
  apply wp_outside ho
  rintro w₁ (e | a) hb hC
  · have hfail : failureOf o (.error e) = some e := by cases o <;> rfl
    exact ⟨(hw.besides hb).forget, (hC e hfail).1⟩
  · exact hw.besides hb

theorem wp_isCancelRequested (hty : lease.jobType = .build)
    (hw : Underway repo encode lease names w) :
    Wp repo encode lease (isCancelRequested lease) w
      (Held repo encode lease fun t b => Underway repo encode lease names t ∧
        (Cancelling lease w → b = true) ∧ (b = true → Cancelling lease t)) := by
  apply wp_operate
  intro w₁ now hb _
  have hw₁ := hw.besides hb
  have hu : usedByPipeline lease .isCancelRequested = true := decide_eq_true hty
  have hdb : perform repo lease now .isCancelRequested w₁.sys.db = w₁.sys.db := by
    show (JobRepository.isCancelRequested lease now).commit w₁.sys.db = _
    unfold Txn.commit JobRepository.isCancelRequested
    split
    · next h =>
      split at h
      · split at h
        · split at h
          · cases h
            rfl
          · cases h
        · cases h
      · cases h
    · rfl
  have hw₂ : Underway repo encode lease names
      (w₁.operated repo lease now .isCancelRequested) := hw₁.operated_same hu hdb
  cases ho : owns w₁.sys.db lease now with
  | false =>
      have hans : transact repo lease now .isCancelRequested w₁.sys.db =
          .error (.lostLease "job lease is no longer owned") := by
        show JobRepository.isCancelRequested lease now w₁.sys.db = _
        unfold JobRepository.isCancelRequested
        rw [ho]
        rfl
      rw [hans]
      exact ⟨hw₂.forget,
        truthful_repository fun _ => hw₁.toIssued.settled_of_not_owns ho⟩
  | true =>
      obtain ⟨j, hj⟩ := owns_eq_true_iff.1 ho
      obtain ⟨t, ht, hx, -⟩ := hw₁.task hty (runsUnder_of_owned hj)
      rcases isCancelRequested_answer now ht hx with ⟨hno, -⟩ | hans
      · rw [ho] at hno
        cases hno
      · rw [show transact repo lease now .isCancelRequested w₁.sys.db =
          .ok (t.cancelRequested, w₁.sys.db) from hans]
        have hflag : cancelFlag lease w₁.sys.db = t.cancelRequested := by
          unfold cancelFlag
          rw [ht]
        refine ⟨hw₂, fun hc => ?_, fun hb _ => ?_⟩
        · exact hflag.symm.trans (hc.besides hw hty hb (runsUnder_of_owned hj))
        · show cancelFlag lease (perform repo lease now .isCancelRequested w₁.sys.db) = _
          rw [hdb, hflag]
          exact hb

theorem wp_cancelBuild (hty : lease.jobType = .build) (hw : Underway repo encode lease names w)
    (hc : Cancelling lease w) :
    Wp repo encode lease (cancelBuild lease) w
      (Held repo encode lease fun t b =>
        (b = true → Issued repo encode lease t ∧ Settled lease t ∧
            t.committed = some .cancelled) ∧
          (b = false → Underway repo encode lease [] t ∧ Settled lease t)) := by
  apply wp_operate
  intro w₁ now hb _
  have hw₁ := hw.besides hb
  have hu : usedByPipeline lease .cancelBuild = true := decide_eq_true hty
  cases ho : owns w₁.sys.db lease now with
  | false =>
      have hans : transact repo lease now .cancelBuild w₁.sys.db = .ok (false, w₁.sys.db) := by
        show JobRepository.cancelBuild lease now w₁.sys.db = _
        unfold JobRepository.cancelBuild
        rw [ho]
        rfl
      rw [hans]
      refine ⟨nofun, fun _ => ⟨?_, hw₁.toIssued.settled_of_not_owns ho⟩⟩
      exact (hw₁.operated_same hu (perform_of_not_owns repo ho _)).forget
  | true =>
      obtain ⟨j, hj⟩ := owns_eq_true_iff.1 ho
      have hr := runsUnder_of_owned hj
      obtain ⟨t, ht, hx, -⟩ := hw₁.task hty hr
      have hflag := hc.besides hw hty hb hr
      unfold cancelFlag at hflag
      rw [ht] at hflag
      dsimp only at hflag
      rcases cancelBuild_answer now ht hx with ⟨-, hno | hno⟩ | ⟨-, db', hans, hst⟩
      · rw [ho] at hno
        cases hno
      · rw [hflag] at hno
        cases hno
      · have hop : perform repo lease now .cancelBuild w₁.sys.db = db' := Txn.commit_of_ok hans
        rw [show transact repo lease now .cancelBuild w₁.sys.db = .ok (true, db') from hans]
        refine ⟨fun _ => ?_, nofun⟩
        have hst' : (w₁.operated repo lease now .cancelBuild).sys.db.jobStatus? lease.id =
            some .cancelled := by
          show (perform repo lease now .cancelBuild w₁.sys.db).jobStatus? lease.id = _
          rw [hop]
          exact hst
        exact ⟨hw₁.toIssued.operated hu, (operated_committed hw₁.uncommitted ho hst' nofun).symm⟩

/-- An operation after which the worker goes on, or which fails without a commit. -/
theorem wp_continue {op : LeaseOperation} {names' : List String}
    (hw : Underway repo encode lease names w) (hu : usedByPipeline lease op = true)
    (hok : ∀ w₁ now a db', Underway repo encode lease names w₁ →
      transact repo lease now op w₁.sys.db = .ok (a, db') → runsUnder lease db' = true ∧
        (lease.jobType = .build → ∀ name ∈ names', db'.packageCount lease.subjectId name = 1))
    (herr : ∀ w₁ now e, Underway repo encode lease names w₁ →
      transact repo lease now op w₁.sys.db = .error e → e.isLost = true →
        owns w₁.sys.db lease now = false) :
    Wp repo encode lease (request (.operate lease op)) w
      (Held repo encode lease fun t _ => Underway repo encode lease names' t) := by
  apply wp_operate
  intro w₁ now hb _
  have hw₁ := hw.besides hb
  have hcommit := perform_eq_commit repo lease now op w₁.sys.db
  cases hans : transact repo lease now op w₁.sys.db with
  | error e =>
      have hdb : perform repo lease now op w₁.sys.db = w₁.sys.db :=
        hcommit.trans (Txn.commit_of_error hans)
      refine ⟨(hw₁.operated_same hu hdb).forget, truthful_repository fun hlost => ?_⟩
      exact hw₁.toIssued.settled_of_not_owns (herr w₁ now e hw₁ hans hlost)
  | ok result =>
      obtain ⟨a, db'⟩ := result
      have hdb : perform repo lease now op w₁.sys.db = db' :=
        hcommit.trans (Txn.commit_of_ok hans)
      obtain ⟨hr, hp⟩ := hok w₁ now a db' hw₁ hans
      apply hw₁.operated_running hu
      · rw [hdb]
        exact hr
      · rw [hdb]
        exact hp

theorem wp_uuids (hw : Underway repo encode lease names w) :
    Wp repo encode lease freshUuids w
      (Held repo encode lease fun t _ => Underway repo encode lease names t) :=
  wp_call rfl hw

/-- Sequencing of programs that commit nothing when they fail. -/
theorem wp_bind {β : Type} {p : WorkerProgram α} {f : α → WorkerProgram β} {P : World → α → Prop}
    {Q : World → β → Prop} (hp : Wp repo encode lease p w (Held repo encode lease P))
    (hf : ∀ t a, P t a → Wp repo encode lease (f a) t (Held repo encode lease Q)) :
    Wp repo encode lease (p >>= f) w (Held repo encode lease Q) := by
  apply Program.meets_bind.2
  apply hp.mono
  rintro t (e | a) ht
  · exact ht
  · exact hf t a ht

theorem wp_advanceBuild (hty : lease.jobType = .build) (hw : Underway repo encode lease names w)
    {status : BuildStatus} (hs : BuildStatus.isStage status = true) (progress : Int)
    (stage message : String) :
    Wp repo encode lease (advanceBuild lease status progress stage message) w
      (Held repo encode lease fun t _ => Underway repo encode lease names t) := by
  refine wp_bind (wp_uuids hw) fun t uuids ht => ?_
  refine wp_continue ht ?_ ?_ ?_
  · show (decide (lease.jobType = .build) && BuildStatus.isStage status) = true
    rw [hs, decide_eq_true hty]
    rfl
  · intro w₁ now a db' hw₁ hans
    refine ⟨advanceBuild_running hans, fun hb name hname => ?_⟩
    have hr : runsUnder lease w₁.sys.db = true := by
      cases ho : owns w₁.sys.db lease now with
      | true =>
          obtain ⟨j, hj⟩ := owns_eq_true_iff.1 ho
          exact runsUnder_of_owned hj
      | false =>
          have herr : repo.advanceBuild lease status progress stage message (uuids 0) now
              w₁.sys.db = .error (.lostLease "could not renew job lease") := by
            unfold JobRepository.advanceBuild
            rw [updateOwnedJob_of_not_owns ho]
          exact absurd (hans.symm.trans herr) nofun
    exact (congrArg (Relational.Table.countWhere · _) (advanceBuild_packages hans)).trans
      (hw₁.packages hb hr name hname)
  · intro w₁ now e hw₁ hans hlost
    cases ho : owns w₁.sys.db lease now with
    | false => rfl
    | true =>
        obtain ⟨j, hj⟩ := owns_eq_true_iff.1 ho
        obtain ⟨t, ht, hx, hn⟩ := hw₁.task hty (runsUnder_of_owned hj)
        rw [← ho]
        exact advanceBuild_answer repo now ht hx (BuildStatus.not_isTerminal_of_isNonterminal hn)
          _ _ _ _ _ hans hlost

theorem wp_persistResolution (hty : lease.jobType = .build)
    (hw : Underway repo encode lease names w) (resolution : ResolutionResult) :
    Wp repo encode lease (persistResolution lease resolution) w
      (Held repo encode lease fun t _ =>
        Underway repo encode lease (resolution.packages.map ResolvedPackage.name) t) := by
  refine wp_bind (wp_uuids hw) fun t uuids ht => ?_
  refine wp_continue ht (decide_eq_true hty) ?_ ?_
  · intro w₁ now a db' hw₁ hans
    obtain ⟨ho, packages, logs, hdb⟩ := persistResolution_ok hans
    obtain ⟨j, hj⟩ := owns_eq_true_iff.1 ho
    constructor
    · rw [hdb]
      exact runsUnder_of_owned (hj.of_job? rfl)
    · intro _ name hname
      obtain ⟨package, hp, rfl⟩ := List.mem_map.1 hname
      exact persistResolution_packages hans package hp
  · intro w₁ now e hw₁ hans hlost
    cases ho : owns w₁.sys.db lease now with
    | false => rfl
    | true =>
        obtain ⟨j, hj⟩ := owns_eq_true_iff.1 ho
        obtain ⟨t, ht, hx, hn⟩ := hw₁.task hty (runsUnder_of_owned hj)
        have := persistResolution_error repo ho ht hx hans
        rw [this] at hlost
        cases hlost

theorem wp_persistPackageResults (hty : lease.jobType = .build) {resolution : ResolutionResult}
    (hw : Underway repo encode lease (resolution.packages.map ResolvedPackage.name) w)
    (wheels : List DownloadedWheel) (validation : BuildValidation) :
    Wp repo encode lease (persistPackageResults lease resolution wheels validation) w
      (Held repo encode lease fun t _ => Underway repo encode lease [] t) := by
  refine wp_continue hw (decide_eq_true hty) ?_ ?_
  · intro w₁ now a db' hw₁ hans
    refine ⟨?_, fun _ _ h => absurd h List.not_mem_nil⟩
    have ho : owns w₁.sys.db lease now = true := by
      cases ho : owns w₁.sys.db lease now with
      | true => rfl
      | false =>
          have herr : repo.persistPackageResults lease resolution wheels validation.report
              (validation.downloadFailures.map fun item => (item.package, item.error)) now
                w₁.sys.db = .error (.lostLease "job lease is no longer owned") := by
            unfold JobRepository.persistPackageResults
            rw [ho]
            rfl
          exact absurd (hans.symm.trans herr) nofun
    obtain ⟨j, hj⟩ := owns_eq_true_iff.1 ho
    obtain ⟨packages, hdb⟩ := persistPackageResults_ok hans
    rw [hdb]
    exact runsUnder_of_owned (hj.of_job? rfl)
  · intro w₁ now e hw₁ hans hlost
    cases ho : owns w₁.sys.db lease now with
    | false => rfl
    | true =>
        obtain ⟨j, hj⟩ := owns_eq_true_iff.1 ho
        rw [← ho]
        refine persistPackageResults_answer repo now ?_ _ _ _ hans
        intro package hp
        exact hw₁.packages hty (runsUnder_of_owned hj) _ (List.mem_map_of_mem hp)

theorem wp_failTerminal (hw : Issued repo encode lease w) (code error : String) :
    Wp repo encode lease (failTerminal lease code error) w fun t x =>
      (∃ b, x = .ok b) ∧ Issued repo encode lease t ∧ Settled lease t ∧
        (w.committed = none → t.committed = none ∨ t.committed = some .failed) := by
  apply wp_operate
  intro w₁ now hb _
  have hw₁ := hw.besides hb
  have hi : Issued repo encode lease
      (w₁.operated repo lease now (.failTerminal code error)) := hw₁.operated rfl
  rcases failTerminal_answer repo lease now w₁.sys.db code error with
    ⟨ho, hans⟩ | ⟨ho, db', hans, hst⟩
  · rw [show transact repo lease now (.failTerminal code error) w₁.sys.db = _ from hans]
    refine ⟨⟨false, rfl⟩, hi, hw₁.settled_of_not_owns ho, fun hc => Or.inl ?_⟩
    refine operated_uncommitted ((committed_besides hb).trans hc) fun hr => ?_
    show runsUnder lease (perform repo lease now _ w₁.sys.db) = true
    rw [perform_of_not_owns repo ho]
    exact hr
  · rw [show transact repo lease now (.failTerminal code error) w₁.sys.db = _ from hans]
    have hdb : (w₁.operated repo lease now (.failTerminal code error)).sys.db = db' :=
      Txn.commit_of_ok hans
    have hst' : (w₁.operated repo lease now (.failTerminal code error)).sys.db.jobStatus?
        lease.id = some .failed := by
      rw [hdb]
      exact hst
    refine ⟨⟨true, rfl⟩, hi, settled_of_status hst' nofun, fun hc => Or.inr ?_⟩
    exact (operated_committed ((committed_besides hb).trans hc) ho hst' nofun).1

theorem wp_retryOrFail (hw : Issued repo encode lease w) (error : String) (retryable : Bool) :
    Wp repo encode lease (retryOrFail lease error retryable) w fun t x =>
      ∃ b, x = .ok b ∧ Issued repo encode lease t ∧ Settled lease t ∧
        (w.committed = none → t.committed =
          if b then
            some (if retryable && decide (lease.attempts < lease.maxAttempts) then .ready
              else .failed)
          else none) := by
  apply wp_operate
  intro w₁ now hb _
  have hw₁ := hw.besides hb
  have hi : Issued repo encode lease
      (w₁.operated repo lease now (.retryOrFail error retryable retryDelaySeconds)) :=
    hw₁.operated rfl
  rcases retryOrFail_answer repo lease now w₁.sys.db error retryable retryDelaySeconds with
    ⟨ho, hans⟩ | ⟨ho, db', hans, hst⟩
  · rw [show transact repo lease now (.retryOrFail error retryable retryDelaySeconds) w₁.sys.db =
      _ from hans]
    refine ⟨false, rfl, hi, hw₁.settled_of_not_owns ho, fun hc => ?_⟩
    refine operated_uncommitted ((committed_besides hb).trans hc) fun hr => ?_
    show runsUnder lease (perform repo lease now _ w₁.sys.db) = true
    rw [perform_of_not_owns repo ho]
    exact hr
  · rw [show transact repo lease now (.retryOrFail error retryable retryDelaySeconds) w₁.sys.db =
      _ from hans]
    have hdb : (w₁.operated repo lease now
        (.retryOrFail error retryable retryDelaySeconds)).sys.db = db' := Txn.commit_of_ok hans
    have hst' : (w₁.operated repo lease now
        (.retryOrFail error retryable retryDelaySeconds)).sys.db.jobStatus? lease.id =
          some (if retryable && decide (lease.attempts < lease.maxAttempts) then .ready
            else .failed) := by
      rw [hdb]
      exact hst
    have hne : (if retryable && decide (lease.attempts < lease.maxAttempts) then JobStatus.ready
        else .failed) ≠ .running := by
      split <;> nofun
    refine ⟨true, rfl, hi, settled_of_status hst' hne, fun hc => ?_⟩
    exact (operated_committed ((committed_besides hb).trans hc) ho hst' hne).1

/-- What a subject claim leaves behind. -/
def ClaimPost (repo : JobRepository) (encode : Api.WireEncoder) (lease : JobLease) :
    World → Except PyError (Option α) → Prop
  | t, .ok none => Issued repo encode lease t ∧ Settled lease t ∧
      (t.committed = none ∨ t.committed = some .failed)
  | t, .ok (some _) => Underway repo encode lease [] t
  | t, .error e => Issued repo encode lease t ∧ t.committed = none ∧ ∃ text, e = .single .value text

theorem claimPost_of_answer {txn : Txn (Option α)} {now : DateTime} {op : LeaseOperation}
    {P : Database → Prop} (hw : Issued repo encode lease w) (hc : w.committed = none)
    (hu : usedByPipeline lease op = true)
    (hop : perform repo lease now op w.sys.db = txn.commit w.sys.db)
    (hP : ∀ db, P db → SubjectHeld lease db)
    (h : ClaimAnswer lease now w.sys.db P (txn w.sys.db)) :
    ClaimPost repo encode lease (w.operated repo lease now op) (answerOf (txn w.sys.db)) := by
  have hi : Issued repo encode lease (w.operated repo lease now op) := hw.operated hu
  cases hans : txn w.sys.db with
  | error e =>
      rw [hans] at h
      obtain ⟨message, rfl⟩ := h
      refine ⟨hi, operated_uncommitted hc fun hr => ?_, message, rfl⟩
      show runsUnder lease (perform repo lease now op w.sys.db) = true
      rw [hop, Txn.commit_of_error hans]
      exact hr
  | ok result =>
      rw [hans] at h
      obtain ⟨subject, db'⟩ := result
      have hdb : (w.operated repo lease now op).sys.db = db' := hop.trans (Txn.commit_of_ok hans)
      cases subject with
      | none =>
          rcases h with ⟨ho, -⟩ | ⟨ho, hst⟩
          · refine ⟨hi, hw.settled_of_not_owns ho,
              Or.inl (operated_uncommitted hc fun hr => ?_)⟩
            show runsUnder lease (perform repo lease now op w.sys.db) = true
            rw [perform_of_not_owns repo ho]
            exact hr
          · have hst' : (w.operated repo lease now op).sys.db.jobStatus? lease.id =
                some .failed := by
              rw [hdb]
              exact hst
            obtain ⟨hcommit, hsettled⟩ := operated_committed hc ho hst' nofun
            exact ⟨hi, hsettled, Or.inr hcommit⟩
      | some subject =>
          obtain ⟨hr, hp⟩ := h
          have hheld := hP db' hp
          refine ⟨hi, operated_uncommitted hc fun _ => ?_, fun _ => ?_, fun _ _ _ hn =>
            absurd hn List.not_mem_nil⟩
          · rw [hdb]
            exact hr
          · rw [hdb]
            exact hheld

theorem wp_claimParseSubject (hty : lease.jobType = .requirementParse)
    (hw : Issued repo encode lease w) (hc : w.committed = none) :
    Wp repo encode lease (claimParseSubject lease) w (ClaimPost repo encode lease) := by
  apply wp_operate
  intro w₁ now hb _
  refine claimPost_of_answer (hw.besides hb) ((committed_besides hb).trans hc)
    (decide_eq_true hty) rfl ?_ (claimParseSubject_answer repo lease now w₁.sys.db)
  rintro db ⟨f, hf, hp⟩
  unfold SubjectHeld
  rw [hty]
  exact ⟨f, hf, hp⟩

theorem wp_claimBuildSubject (hty : lease.jobType = .build)
    (hw : Issued repo encode lease w) (hc : w.committed = none) :
    Wp repo encode lease (claimBuildSubject lease) w (ClaimPost repo encode lease) := by
  apply wp_operate
  intro w₁ now hb _
  refine claimPost_of_answer (hw.besides hb) ((committed_besides hb).trans hc)
    (decide_eq_true hty) rfl ?_ (claimBuildSubject_answer repo lease now w₁.sys.db)
  rintro db ⟨t, ht, hx, hs⟩
  unfold SubjectHeld
  rw [hty]
  refine ⟨t, ht, hx, ?_⟩
  rw [hs]
  rfl

/-- What the last operation of a job leaves behind, by its result. -/
def Finished (repo : JobRepository) (encode : Api.WireEncoder) (lease : JobLease) (t : World)
    (done : Bool) : Prop :=
  (done = false ∧ Underway repo encode lease [] t ∧ Settled lease t) ∨
    (done = true ∧ Issued repo encode lease t ∧ Settled lease t ∧
      t.committed = some .completed)

/-- The last operation of a job: it completes the job, finds the lease lost, or fails without a
commit. -/
theorem underway_completed (txn : Txn α) {now : DateTime} {op : LeaseOperation}
    (refused done : α) (hw : Underway repo encode lease names w)
    (hu : usedByPipeline lease op = true)
    (hop : perform repo lease now op w.sys.db = txn.commit w.sys.db)
    (h : (owns w.sys.db lease now = false ∧ txn w.sys.db = .ok (refused, w.sys.db)) ∨
      (owns w.sys.db lease now = true ∧ ∃ db', txn w.sys.db = .ok (done, db') ∧
        db'.jobStatus? lease.id = some .completed) ∨
      txn w.sys.db = .error .integrity) {Q : World → α → Prop}
    (hrefused : ∀ t, Finished repo encode lease t false → Q t refused)
    (hdone : ∀ t, Finished repo encode lease t true → Q t done) :
    Held repo encode lease Q (w.operated repo lease now op) (answerOf (txn w.sys.db)) := by
  rcases h with ⟨ho, hans⟩ | ⟨ho, db', hans, hst⟩ | hans
  · rw [hans]
    apply hrefused
    refine Or.inl ⟨rfl, ?_, hw.toIssued.settled_of_not_owns ho⟩
    exact (hw.operated_same hu (perform_of_not_owns repo ho op)).forget
  · rw [hans]
    apply hdone
    have hdb : (w.operated repo lease now op).sys.db = db' := hop.trans (Txn.commit_of_ok hans)
    have hst' : (w.operated repo lease now op).sys.db.jobStatus? lease.id = some .completed := by
      rw [hdb]
      exact hst
    exact Or.inr ⟨rfl, hw.toIssued.operated hu,
      (operated_committed hw.uncommitted ho hst' nofun).symm⟩
  · rw [hans]
    refine ⟨?_, truthful_repository nofun⟩
    exact (hw.operated_same hu (hop.trans (Txn.commit_of_error hans))).forget

theorem wp_completeParse (hty : lease.jobType = .requirementParse)
    (hw : Underway repo encode lease names w) (parsed : ParsedRequirements) (key : String) :
    Wp repo encode lease (completeParse lease parsed key) w
      (Held repo encode lease (Finished repo encode lease)) := by
  refine wp_bind (wp_uuids hw) fun t uuids ht => ?_
  apply wp_operate
  intro w₁ now hb _
  have hw₁ := ht.besides hb
  have hu : usedByPipeline lease (.completeParse parsed key uuids) = true := decide_eq_true hty
  refine underway_completed (JobRepository.completeParse lease parsed key uuids now) false true hw₁
    hu rfl ?_ (fun _ h => h) (fun _ h => h)
  rcases owns_cases lease now w₁.sys.db with ho | ⟨j, hj⟩
  · left
    refine ⟨ho, ?_⟩
    unfold JobRepository.completeParse
    rw [ho]
    rfl
  · have hsub := hw₁.subject (runsUnder_of_owned hj)
    unfold SubjectHeld at hsub
    rw [hty] at hsub
    obtain ⟨f, hf, hp⟩ := hsub
    exact completeParse_answer now hf hp parsed key uuids

theorem wp_publishArtifactTerminal (hty : lease.jobType = .build)
    (hw : Underway repo encode lease names w) (artifactId : Uuid) (published : PublishedObject)
    (filename : String) {status : BuildStatus} (hs : status.isPublished = true)
    (expiresAt : DateTime) :
    Wp repo encode lease
      (publishArtifactTerminal lease artifactId published filename status expiresAt) w
      (Held repo encode lease fun t a => Finished repo encode lease t a.isSome) := by
  apply wp_operate
  intro w₁ now hb hC
  have hw₁ := hw.besides hb
  have hu : usedByPipeline lease
      (.publishArtifactTerminal artifactId published filename status expiresAt) = true := by
    show (decide (lease.jobType = .build) && status.isPublished) = true
    rw [hs, decide_eq_true hty]
    rfl
  refine underway_completed (JobRepository.publishArtifactTerminal lease artifactId published
    filename status expiresAt now) none (some artifactId) hw₁ hu rfl ?_ (fun _ h => h)
      (fun _ h => h)
  rcases owns_cases lease now w₁.sys.db with ho | ⟨j, hj⟩
  · left
    refine ⟨ho, ?_⟩
    unfold JobRepository.publishArtifactTerminal
    rw [ho]
    rfl
  · obtain ⟨t, ht, hx, -⟩ := hw₁.task hty (runsUnder_of_owned hj)
    refine publishArtifactTerminal_answer now ht hx (fun ho => ?_) artifactId published filename
      status expiresAt
    have hflag := hC ho
    unfold cancelFlag at hflag
    rw [ht] at hflag
    exact hflag

end Rules

end WheelForge.Worker
