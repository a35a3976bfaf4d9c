import WheelForge.Api.RequirementFileService

/-!
# The two resources of an upload

After an upload of a new file the database and the object storage agree: the row, its job and the
object are there, or none of them is. `upload_consistent_iff` says exactly when; the upload fails it
when its commit took effect and is reported as unknown, because the callback then deletes the
object of the committed row.
-/

set_option autoImplicit false

namespace WheelForge.Api.RequirementFileService

open WheelForge.Java (CommitOutcome CompletionStatus MethodOutcome Resources afterCompletion
  transactional transactional_error transactional_ok)
open WheelForge.Jobs
open WheelForge.Relational

/-! ## The two states -/

section States

variable (digest : List UInt8 → String) (request : UploadRequest) (w : Resources Database Objects)

/-- The row and its job are committed, and the object has the recorded size and digest. -/
def Registered : Prop :=
  ∃ content file job, w.outside request.originalObject = some content ∧
    w.db.file? request.fileId = some file ∧ file.sizeBytes = content.length ∧
    file.sha256 = digest content ∧ job ∈ w.db.buildJobs ∧ job.jobType = .requirementParse ∧
    job.subjectId = request.fileId

/-- Neither a row nor an object of the file. -/
structure Absent : Prop where
  object : w.outside request.originalObject = none
  file : w.db.file? request.fileId = none
  job : ∀ job ∈ w.db.buildJobs, job.subjectId ≠ request.fileId

def Consistent : Prop := Registered digest request w ∨ Absent request w

end States

/-! ## What a request needs -/

/-- The original is stored with a content. -/
structure Published (request : UploadRequest) (objects : Objects) (content : List UInt8) : Prop where
  transactionActive : request.transactionActive = true
  metadata : ∃ filename, validateMetadata request.file = .ok filename
  stored : ∃ rounds, request.file.inputStream = .ok rounds ∧
    Publishes request.storageFaults request.temporaryIds request.baseDirectory rounds
      request.file.size objects content

/-- `BuildJobService.requirementParsePayload` of the two keys. -/
def requirementParsePayload (request : UploadRequest) : Json :=
  .object
    [("originalObjectKey", .string
        ("users/" ++ request.userId ++ "/requirements/" ++ request.fileId ++ "/original.txt")),
      ("normalizedObjectKey", .string
        ("users/" ++ request.userId ++ "/requirements/" ++ request.fileId ++ "/normalized.txt"))]

/-- Nothing raises before the commit. -/
structure Accepted (encode : WireEncoder) (request : UploadRequest)
    (w : Resources Database Objects) : Prop where
  published : ∃ content, Published request w.outside content
  synchronizationActive : request.synchronizationActive = true
  close : request.file.close = none
  databaseFault : request.databaseFault = none
  encoded : (encode .requirementParse request.fileId request.now
    (requirementParsePayload request)).isSome = true
  jobId : w.db.buildJobs.find? request.jobId = none

section Steps

variable {digest : List UInt8 → String} {encode : WireEncoder} {request : UploadRequest}
  {db db' : Database} {objects : Objects} {w : Resources Database Objects}

/-- What `enqueue` writes, and when it raises nothing. -/
theorem enqueue_cases {jobType : JobType} {subjectId jobId : Uuid} {payload : Json}
    {now : DateTime} :
    ((encode jobType subjectId now payload).isSome = true ∧ db.buildJobs.find? jobId = none ∧
      ∃ job jobs, enqueue encode jobType subjectId payload jobId now db =
        .ok { db with buildJobs := jobs } ∧ db.buildJobs.insert? job = some jobs ∧
          job.jobType = jobType ∧ job.subjectId = subjectId) ∨
    (¬ ((encode jobType subjectId now payload).isSome = true ∧
      db.buildJobs.find? jobId = none) ∧
      ∃ e, enqueue encode jobType subjectId payload jobId now db = .error e) := by
  rw [enqueue]
  cases hencode : encode jobType subjectId now payload with
  | none => exact Or.inr ⟨by simp, _, rfl⟩
  | some wire =>
      dsimp only
      by_cases hfree : db.buildJobs.find? jobId = none
      · obtain ⟨jobs, hjobs⟩ := Table.insert?_of_free (r := newJob jobId jobType subjectId wire now)
          hfree
        rw [hjobs]
        exact Or.inl ⟨rfl, hfree, _, jobs, rfl, hjobs, rfl, rfl⟩
      · have htaken := Table.insert?_of_taken (r := newJob jobId jobType subjectId wire now) hfree
        rw [htaken]
        exact Or.inr ⟨fun h => hfree h.2, _, rfl⟩

/-- The transaction writes the row of the file and its job, or raises. -/
theorem saveAndEnqueueParse_cases (hfile : db.file? request.fileId = none) (filename : String)
    (stored : StoredObject) :
    (request.databaseFault = none ∧ (encode .requirementParse request.fileId request.now
        (requirementParsePayload request)).isSome = true ∧
      db.buildJobs.find? request.jobId = none ∧
      ∃ db', saveAndEnqueueParse encode request filename stored db = .ok db' ∧
        db'.file? request.fileId = some (pendingFile request filename stored) ∧
        ∃ job ∈ db'.buildJobs, job.jobType = .requirementParse ∧
          job.subjectId = request.fileId) ∨
    (¬ (request.databaseFault = none ∧ (encode .requirementParse request.fileId request.now
        (requirementParsePayload request)).isSome = true ∧
      db.buildJobs.find? request.jobId = none) ∧
      ∃ e, saveAndEnqueueParse encode request filename stored db = .error e) := by
  rw [saveAndEnqueueParse]
  cases hfault : request.databaseFault with
  | some e => exact Or.inr ⟨by simp, e, rfl⟩
  | none =>
      obtain ⟨files, hfiles⟩ := Table.insert?_of_free
        (r := pendingFile request filename stored) hfile
      dsimp only
      have hupload : Api.upload encode request.userId request.fileId request.jobId filename
          stored.sizeBytes stored.sha256 request.now db =
            enqueue encode .requirementParse request.fileId (requirementParsePayload request)
              request.jobId request.now { db with requirementFiles := files } := by
        rw [Api.upload]
        exact hfiles ▸ rfl
      rw [hupload]
      obtain ⟨hencode, hfree, job, jobs, henqueue, hinsert, htype, hsubject⟩ |
          ⟨hrefused, e, henqueue⟩ := @enqueue_cases encode { db with requirementFiles := files } .requirementParse
          request.fileId request.jobId (requirementParsePayload request) request.now
      · rw [henqueue]
        refine Or.inl ⟨rfl, hencode, hfree, _, rfl, ?_, job,
          (Table.mem_of_insert? hinsert).2 (Or.inr rfl), htype, hsubject⟩
        exact (Table.find?_of_insert? hfiles _).trans (if_pos rfl)
      · rw [henqueue]
        exact Or.inr ⟨fun h => hrefused h.2, _, rfl⟩

theorem originalName_ne_temporaryName (identifier : Uuid) :
    UploadRequest.originalName ≠ temporaryName identifier := by
  intro h
  have hchars := congrArg (fun name => name.toList.head?) h
  simp [UploadRequest.originalName, temporaryName, String.toList_append] at hchars

theorem deleteIfExists_object (raises : StorageFaults) (path : ObjectPath) (objects : Objects) :
    (deleteIfExists raises path objects).2 path =
      if raises .deleteObject = none then none else objects path := by
  rw [deleteIfExists]
  cases raises .deleteObject with
  | none => simp
  | some e => simp

/-- The clean-up of a transaction that was not reported as committed. -/
theorem rollbackCleanup_object {status : CompletionStatus} (h : status ≠ .committed) :
    rollbackCleanup request status objects request.originalObject =
      if request.storageFaults .deleteObject = none then none
      else objects request.originalObject := by
  rw [rollbackCleanup, if_pos h, deleteIfExists_object]

/-- What the `try` statement does to the object, with any clean-up that is still to come. -/
theorem storeOriginal_cases (hnew : objects request.originalObject = none) :
    (∃ content rounds, request.file.inputStream = .ok rounds ∧
      Publishes request.storageFaults request.temporaryIds request.baseDirectory rounds
        request.file.size objects content ∧
      ((request.synchronizationActive = true ∧ request.file.close = none ∧
          storeOriginal digest request objects =
            (.ok ⟨content.length, digest content⟩,
              Function.update objects request.originalObject (some content),
              [rollbackCleanup request])) ∨
        (¬ (request.synchronizationActive = true ∧ request.file.close = none) ∧
          ∃ e after callbacks, storeOriginal digest request objects = (.error e, after, callbacks) ∧
            ∀ status, status ≠ .committed →
              afterCompletion status callbacks after request.originalObject =
                if request.storageFaults .deleteObject = none then none else some content))) ∨
    ((¬ ∃ content rounds, request.file.inputStream = .ok rounds ∧
      Publishes request.storageFaults request.temporaryIds request.baseDirectory rounds
        request.file.size objects content) ∧
      ∃ e after, storeOriginal digest request objects = (.error e, after, []) ∧
        after request.originalObject = none) := by
  rw [storeOriginal]
  cases hstream : request.file.inputStream with
  | error e =>
      refine Or.inr ⟨?_, _, _, rfl, hnew⟩
      rintro ⟨_, _, h, -⟩
      cases h
  | ok rounds =>
      dsimp only
      obtain ⟨content, hpublishes, hput⟩ | ⟨hrefused, e, after, hput, hafter⟩ :=
        @putAtomically_cases digest request.storageFaults request.temporaryIds
          request.baseDirectory UploadRequest.originalName rounds request.file.size objects
      · rw [hput]
        refine Or.inl ⟨content, rounds, rfl, hpublishes, ?_⟩
        have hobject : Function.update objects (request.baseDirectory ++ [UploadRequest.originalName])
            (some content) request.originalObject = some content := Function.update_self ..
        cases hsynchronization : request.synchronizationActive with
        | false =>
            refine Or.inr ⟨by simp, _, _, _, rfl, fun status _ => ?_⟩
            -- the object is deleted before the callback is registered
            exact (deleteIfExists_object ..).trans (by rw [hobject])
        | true =>
            cases hclose : request.file.close with
            | none => exact Or.inl ⟨rfl, rfl, rfl⟩
            | some e =>
                refine Or.inr ⟨by simp, _, _, _, rfl, fun status hstatus => ?_⟩
                exact (rollbackCleanup_object hstatus).trans (by rw [hobject])
      · rw [hput]
        refine Or.inr ⟨?_, _, _, rfl, ?_⟩
        · rintro ⟨content, rounds', hsame, hpublishes⟩
          cases hsame
          exact hrefused ⟨content, hpublishes⟩
        · refine (hafter _ fun identifier h => ?_).trans hnew
          exact originalName_ne_temporaryName identifier
            (List.cons.inj (List.append_cancel_left h)).1

/-- A body that raises leaves no object once the clean-up has run, unless its delete fails. -/
structure Failed (request : UploadRequest) (objects : Objects)
    (body : MethodOutcome Throwable RequirementFileView Database Objects) : Prop where
  result : ∃ e, body.result = .error e
  unpublished : (¬ ∃ content, Published request objects content) → ∀ status, status ≠ .committed →
    afterCompletion status body.synchronizations body.outside request.originalObject = none
  published : ∀ content, Published request objects content → ∀ status, status ≠ .committed →
    ∃ content, afterCompletion status body.synchronizations body.outside request.originalObject =
      if request.storageFaults .deleteObject = none then none else some content

/-- A body that returns has written the rows and the object, and its clean-up is registered. -/
structure Succeeded (digest : List UInt8 → String) (request : UploadRequest)
    (body : MethodOutcome Throwable RequirementFileView Database Objects) : Prop where
  result : ∃ view, body.result = .ok view
  synchronizations : body.synchronizations = [rollbackCleanup request]
  registered : Registered digest request ⟨body.db, body.outside⟩

theorem upload_cases (hnew : Absent request w) :
    (Accepted encode request w ∧
        Succeeded digest request (upload digest encode request w.db w.outside)) ∨
      (¬ Accepted encode request w ∧
        Failed request w.outside (upload digest encode request w.db w.outside)) := by
  have hunpublished : ∀ e, (¬ ∃ content, Published request w.outside content) →
      ¬ Accepted encode request w ∧
        Failed request w.outside (⟨.error e, w.db, w.outside, []⟩ :
          MethodOutcome Throwable RequirementFileView Database Objects) := fun e h =>
    ⟨fun haccepted => h haccepted.published, ⟨e, rfl⟩, fun _ _ _ => hnew.object,
      fun content hpublished => absurd ⟨content, hpublished⟩ h⟩
  rw [upload]
  cases hactive : request.transactionActive with
  | false =>
      refine Or.inr (hunpublished _ ?_)
      rintro ⟨content, hpublished⟩
      exact absurd (hactive.symm.trans hpublished.transactionActive) nofun
  | true =>
  cases hmetadata : validateMetadata request.file with
  | error e =>
      refine Or.inr (hunpublished e ?_)
      rintro ⟨content, hpublished⟩
      obtain ⟨filename, hfilename⟩ := hpublished.metadata
      cases hmetadata.symm.trans hfilename
  | ok filename =>
      simp only [Bool.not_true, Bool.false_eq_true, if_false]
      obtain ⟨content, rounds, hstream, hpublishes, hstored⟩ |
          ⟨hrefused, e, after, hstored, hobject⟩ := @storeOriginal_cases digest request w.outside hnew.object
      · have hpublished : Published request w.outside content :=
          ⟨hactive, ⟨filename, hmetadata⟩, rounds, hstream, hpublishes⟩
        obtain ⟨hsynchronization, hclose, hstored⟩ |
            ⟨hraised, e, after, callbacks, hstored, hcleanup⟩ := hstored
        · rw [hstored]
          dsimp only
          have hobject : Function.update w.outside request.originalObject (some content)
              request.originalObject = some content := Function.update_self ..
          obtain ⟨hfault, hencoded, hjobId, db', hsaved, hfile, job, hjob, htype, hsubject⟩ |
              ⟨hfailed, e, hsaved⟩ :=
            @saveAndEnqueueParse_cases encode request w.db hnew.file filename
              ⟨content.length, digest content⟩
          · rw [hsaved]
            exact Or.inl ⟨⟨⟨content, hpublished⟩, hsynchronization, hclose, hfault, hencoded,
                hjobId⟩, ⟨_, rfl⟩, rfl, content, _, job, hobject, hfile, rfl, rfl, hjob, htype, hsubject⟩
          · rw [hsaved]
            dsimp only
            refine Or.inr ⟨fun haccepted => hfailed
              ⟨haccepted.databaseFault, haccepted.encoded, haccepted.jobId⟩, ⟨e, rfl⟩,
              fun h => absurd ⟨content, hpublished⟩ h, fun _ _ status hstatus => ⟨content, ?_⟩⟩
            exact (rollbackCleanup_object hstatus).trans (by dsimp only; rw [hobject])
        · rw [hstored]
          exact Or.inr ⟨fun haccepted => hraised
            ⟨haccepted.synchronizationActive, haccepted.close⟩, ⟨e, rfl⟩,
            fun h => absurd ⟨content, hpublished⟩ h,
            fun _ _ status hstatus => ⟨content, hcleanup status hstatus⟩⟩
      · rw [hstored]
        have hunstored : ¬ ∃ content, Published request w.outside content := by
          rintro ⟨content, hpublished⟩
          obtain ⟨rounds, hstream, hpublishes⟩ := hpublished.stored
          exact hrefused ⟨content, rounds, hstream, hpublishes⟩
        exact Or.inr ⟨fun haccepted => hunstored haccepted.published, ⟨e, rfl⟩,
          fun _ _ _ => hobject, fun content hpublished => absurd ⟨content, hpublished⟩ hunstored⟩

end Steps

/-! ## When the resources agree -/

section Agreement

variable {digest : List UInt8 → String} {request : UploadRequest} {w : Resources Database Objects}
  {db : Database} {objects after : Objects}

/-- Without the rows the resources agree just when there is no object. -/
theorem consistent_without_rows (hnew : Absent request w) :
    Consistent digest request ⟨w.db, after⟩ ↔ after request.originalObject = none := by
  constructor
  · rintro (⟨_, _, _, -, hfile, -⟩ | habsent)
    · cases hnew.file.symm.trans hfile
    · exact habsent.object
  · exact fun hobject => Or.inr ⟨hobject, hnew.file, hnew.job⟩

/-- With the rows they agree just when the object is still there. -/
theorem consistent_with_rows (h : Registered digest request ⟨db, objects⟩)
    (hafter : after request.originalObject = none ∨
      after request.originalObject = objects request.originalObject) :
    Consistent digest request ⟨db, after⟩ ↔ after request.originalObject ≠ none := by
  obtain ⟨content, file, job, hobject, hfile, hrows⟩ := h
  constructor
  · rintro (⟨_, _, _, hthere, -⟩ | habsent)
    · exact fun hnone => nomatch hnone.symm.trans hthere
    · cases habsent.file.symm.trans hfile
  · intro hthere
    obtain hnone | hsame := hafter
    · exact absurd hnone hthere
    · exact Or.inl ⟨content, file, job, hsame.trans hobject, hfile, hrows⟩

end Agreement

/-- After the upload of a new file the resources agree exactly when a commit that took effect is
reported as such, or not followed by a delete, and otherwise the clean-up of a stored object does
not fail itself. -/
theorem upload_consistent_iff (digest : List UInt8 → String) (encode : WireEncoder)
    (request : UploadRequest) (w : Resources Database Objects) (hnew : Absent request w) :
    Consistent digest request (uploadTransaction digest encode request w).2 ↔
      (Accepted encode request w → request.commit.tookEffect = true →
        request.commit = .committed ∨ request.storageFaults .deleteObject ≠ none) ∧
      (¬ (Accepted encode request w ∧ request.commit.tookEffect = true) →
        (∃ content, Published request w.outside content) →
          request.storageFaults .deleteObject = none) := by
  rw [uploadTransaction]
  obtain ⟨haccepted, hbody⟩ | ⟨hrefused, hbody⟩ :=
    @upload_cases digest encode request w hnew
  · obtain ⟨view, hview⟩ := hbody.result
    rw [transactional_ok hview, hbody.synchronizations]
    obtain ⟨content, _, _, hobject, -⟩ := hbody.registered
    dsimp only at hobject
    have hcleanup : ∀ status, status ≠ .committed →
        afterCompletion status [rollbackCleanup request]
            (upload digest encode request w.db w.outside).outside request.originalObject =
          if request.storageFaults .deleteObject = none then none else some content :=
      fun status hstatus => (rollbackCleanup_object hstatus).trans (by rw [hobject])
    cases heffect : request.commit.tookEffect with
    | false =>
        have hstatus : request.commit.status ≠ .committed := fun h => by
          rw [CommitOutcome.status_eq_committed.1 h] at heffect
          cases heffect
        rw [if_neg Bool.false_ne_true, consistent_without_rows hnew, hcleanup _ hstatus]
        have hpublished := haccepted.published
        simp [hpublished]
    | true =>
        rw [if_pos rfl]
        by_cases hcommitted : request.commit = .committed
        · have hkept : afterCompletion request.commit.status [rollbackCleanup request]
              (upload digest encode request w.db w.outside).outside =
                (upload digest encode request w.db w.outside).outside := by
            rw [hcommitted]
            rfl
          rw [hkept, consistent_with_rows hbody.registered (Or.inr rfl), hobject]
          simp [hcommitted, haccepted]
        · have hdeleted := hcleanup _ fun h => hcommitted (CommitOutcome.status_eq_committed.1 h)
          rw [consistent_with_rows hbody.registered, hdeleted]
          · simp [hcommitted, haccepted]
          · rw [hdeleted, hobject]
            split
            · exact Or.inl rfl
            · exact Or.inr rfl
  · obtain ⟨e, he⟩ := hbody.result
    obtain ⟨status, hstatus, htransactional⟩ := @transactional_error _ _ _ _ request.commit
      (.unchecked "TransactionSystemException") request.rollbackRaises w.db _ e he
    rw [htransactional, consistent_without_rows hnew]
    by_cases hpublished : ∃ content, Published request w.outside content
    · obtain ⟨content, hcontent⟩ := hpublished
      obtain ⟨left, hleft⟩ := hbody.published content hcontent status hstatus
      rw [hleft]
      have hstored : ∃ content, Published request w.outside content := ⟨content, hcontent⟩
      simp [hrefused, hstored]
    · rw [hbody.unpublished hpublished status hstatus]
      simp [hrefused, hpublished]

/-! ## A commit that is reported as unknown -/

/-- The upload of a file with one letter. -/
def letterUpload (commit : CommitOutcome) : UploadRequest where
  userId := "5f2c1a34-0d8e-4b57-9a61-7c3e2f90b1d4"
  file :=
    { originalFilename := some "requirements.txt"
      size := 1
      inputStream := .ok [⟨.ok [97], none⟩]
      close := none }
  fileId := "b7d0c2e8-6f41-4c9a-8e13-2a5d9f074c66"
  jobId := "0e9b8f52-71a3-4d6c-b2f0-93c4a1d7e885"
  temporaryIds := ["c41d7a90-2e5b-4f83-a6c7-18f0b93d5e22"]
  now := 0
  transactionActive := true
  synchronizationActive := true
  storageFaults := fun _ => none
  databaseFault := none
  commit := commit
  rollbackRaises := false

/-- The digest of the letter. -/
def letterDigest : List UInt8 → String := fun _ =>
  "ca978112ca1bbdcafac231b39a23dc4da786eff8147c4e72b9807785afee48bb"

def plainEncoder : WireEncoder := fun _ _ _ payload => some payload

def emptyResources : Resources Database Objects := ⟨Database.empty, fun _ => none⟩

theorem letterUpload_absent (commit : CommitOutcome) :
    Absent (letterUpload commit) emptyResources :=
  ⟨rfl, rfl, fun _ hjob => absurd hjob List.not_mem_nil⟩

/-- Where the commit is rolled back the stored object is deleted again. -/
theorem upload_consistent_iff_rolledBack :
    Published (letterUpload .rolledBack) emptyResources.outside [97] ∧
      Consistent letterDigest (letterUpload .rolledBack)
        (uploadTransaction letterDigest plainEncoder (letterUpload .rolledBack)
          emptyResources).2 := by
  constructor
  · have hfree : FreeTemporary (letterUpload .rolledBack).temporaryIds
        (letterUpload .rolledBack).baseDirectory emptyResources.outside :=
      ⟨_, List.mem_singleton_self _, rfl⟩
    exact ⟨rfl, ⟨"requirements.txt", rfl⟩, _, rfl, fun _ _ _ => rfl, hfree,
      ⟨[[97]], rfl, rfl, by decide⟩, rfl⟩
  · exact (upload_consistent_iff letterDigest plainEncoder (letterUpload .rolledBack) emptyResources
      (letterUpload_absent .rolledBack)).2 ⟨fun _ heffect => (nomatch heffect), fun _ _ => rfl⟩

/-- The row and its job are committed, and the callback has deleted the object. -/
theorem unknown_commit_deletes :
    Absent (letterUpload (.unknown true)) emptyResources ∧
      (letterUpload (.unknown true)).storageFaults .deleteObject = none ∧
      ¬ Consistent letterDigest (letterUpload (.unknown true))
        (uploadTransaction letterDigest plainEncoder (letterUpload (.unknown true))
          emptyResources).2 := by
  refine ⟨letterUpload_absent _, rfl, ?_⟩
  rintro (⟨content, _, _, hobject, -⟩ | habsent)
  · have hdeleted : (uploadTransaction letterDigest plainEncoder (letterUpload (.unknown true))
        emptyResources).2.outside (letterUpload (.unknown true)).originalObject = none := rfl
    cases hdeleted.symm.trans hobject
  · have hcommitted : ((uploadTransaction letterDigest plainEncoder (letterUpload (.unknown true))
        emptyResources).2.db.file? (letterUpload (.unknown true)).fileId).isSome = true := rfl
    rw [habsent.file] at hcommitted
    cases hcommitted

end WheelForge.Api.RequirementFileService
