import WheelForge.Api.ArtifactService
import WheelForge.Relational.RowLocks
import WheelForge.Transition.System

/-!
# Downloads and the retention clean-up in any order

`prepareDownload`, `stream` and the clean-up run as transactions, statement by statement.
`prepareDownload` holds the lock of its artifact row until it commits. `claimExpired` goes over the
rows one by one: it skips a locked row, reads the current version of the others and locks what it
selects. Its subquery takes no locks and reads the download records of the transaction's read view,
which the first plain read of the transaction fixes: that of the configuration in
`scheduledCleanup`, else the first subquery.
-/

set_option autoImplicit false

namespace WheelForge.Api

open WheelForge.Jobs
open WheelForge.Relational
open WheelForge.Transition

/-! ## Transactions -/

inductive DownloadPhase where
  | begun
  /-- The row is read and locked. -/
  | locked (artifact : ArtifactRow)
  /-- The clock is read and the artifact is available. -/
  | prepared (artifact : ArtifactRow) (record : DownloadRecord)
  | committed (ticket : DownloadTicket)
  | rolledBack

/-- A call of `prepareDownload`. -/
structure Download where
  userId : Uuid
  artifactId : Uuid
  ipAddress : Option String
  userAgent : Option String
  /-- `UUID.randomUUID()`. -/
  recordId : Uuid
  phase : DownloadPhase

inductive CleanupPhase where
  /-- `scheduledCleanup` starts. -/
  | begun
  /-- The switches allow the clean-up. -/
  | enabled
  | claiming (now : DateTime) (claimed : List ArtifactRow)
  | deleting (now : DateTime) (waiting cleaned : List ArtifactRow)
  | ended

/-- A call of `scheduledCleanup` or `cleanupBatch`. -/
structure Cleanup where
  /-- The download records of the read view. -/
  view : Option (List DownloadRecord)
  phase : CleanupPhase

inductive StreamPhase where
  | begun
  | found
  | opened
  | ended

/-- A call of `stream`. -/
structure Stream where
  ticket : DownloadTicket
  phase : StreamPhase

inductive RetentionTransaction where
  | download (d : Download)
  | cleanup (c : Cleanup)
  | stream (s : Stream)

structure RetentionWorld where
  clock : DateTime
  artifacts : Table ArtifactRow
  records : Table DownloadRecord
  /-- The object keys under which there is an object. -/
  objects : String → Bool
  locks : RowLocks Uuid
  transactions : Nat → Option RetentionTransaction

namespace RetentionWorld

def setTransaction (w : RetentionWorld) (i : Nat) (t : RetentionTransaction) : RetentionWorld :=
  { w with transactions := Function.update w.transactions i (some t) }

/-- A transaction that ends gives its locks back. -/
def finish (w : RetentionWorld) (i : Nat) (t : RetentionTransaction) : RetentionWorld :=
  { w with locks := w.locks.release i }.setTransaction i t

end RetentionWorld

/-! ## Statements -/

inductive DownloadStatement where
  /-- `findByIdAndOwnerForUpdate`. -/
  | lock
  /-- `clock.instant()`, the check and the new record. -/
  | check
  | commit
  | rollback

inductive CleanupStatement where
  /-- `databaseRetentionEnabled`, with what the configuration says. -/
  | readConfig (enabled : Bool)
  | readClock
  /-- `claimExpired` comes to the row of an artifact. -/
  | claim (artifactId : Uuid)
  /-- It has no more rows. -/
  | endClaim
  /-- `deleteIfExists` of the next claimed artifact. -/
  | delete (raises : Bool)
  | commit
  | rollback

inductive StreamStatement where
  /-- `downloadRecordRepository.findById`. -/
  | find
  /-- `storage.open`. -/
  | openObject
  /-- The copy is verified, and the completed record is committed. -/
  | complete
  | rollback

inductive RetentionAction where
  | tick (now : DateTime)
  /-- Another transaction commits the row of a new artifact. -/
  | publish (artifact : ArtifactRow)
  /-- Other programs change the objects. -/
  | otherObjects (objects : String → Bool)
  | beginDownload (i : Nat) (userId artifactId : Uuid) (ipAddress userAgent : Option String)
      (recordId : Uuid)
  | beginCleanup (i : Nat) (scheduled : Bool)
  | beginStream (i : Nat) (ticket : DownloadTicket)
  | download (i : Nat) (s : DownloadStatement)
  | cleanup (i : Nat) (s : CleanupStatement)
  | stream (i : Nat) (s : StreamStatement)

section System

variable (job : RetentionJob) (owners : Uuid → Option Uuid)

/-- A statement of `prepareDownload`; the lock waits while another transaction has it. -/
def DownloadStatement.perform (w : RetentionWorld) (i : Nat) (d : Download) :
    DownloadStatement → RetentionWorld
  | .lock =>
      match d.phase, w.locks d.artifactId with
      | .begun, none =>
          match findByIdAndOwner w.artifacts owners d.artifactId d.userId with
          | some artifact =>
              { w with locks := w.locks.acquire d.artifactId i }.setTransaction i
                (.download { d with phase := .locked artifact })
          | none => w.finish i (.download { d with phase := .rolledBack })
      | _, _ => w
  | .check =>
      match d.phase with
      | .locked artifact =>
          if isAvailable artifact w.clock then
            w.setTransaction i (.download
              { d with phase := .prepared artifact (downloadRecord d.recordId artifact d.userId
                  d.ipAddress d.userAgent w.clock) })
          else w.finish i (.download { d with phase := .rolledBack })
      | _ => w
  | .commit =>
      match d.phase with
      | .prepared artifact record =>
          match w.records.insert? record with
          | some records =>
              { w with
                artifacts := w.artifacts.replace (incrementDownloadCount artifact)
                records := records }.finish i
                (.download { d with phase := .committed (downloadTicket record artifact) })
          | none => w.finish i (.download { d with phase := .rolledBack })
      | _ => w
  | .rollback =>
      match d.phase with
      | .committed _ => w
      | _ => w.finish i (.download { d with phase := .rolledBack })

/-- The step of `claimExpired` at the row of an artifact. -/
def claimRow (w : RetentionWorld) (i : Nat) (c : Cleanup) (now : DateTime)
    (claimed : List ArtifactRow) (artifact : ArtifactRow) : RetentionWorld :=
  if claimed.length < job.batchSize && isExpired artifact now then
    -- the subquery fixes the read view if nothing did before
    let view := c.view.getD w.records.rows
    if view.any fun record => record.isActive artifact.id (job.cutoff now) then
      w.setTransaction i (.cleanup ⟨some view, .claiming now claimed⟩)
    else
      { w with locks := w.locks.acquire artifact.id i }.setTransaction i
        (.cleanup ⟨some view, .claiming now (claimed ++ [artifact])⟩)
  else w

/-- A statement of the clean-up. -/
def CleanupStatement.perform (w : RetentionWorld) (i : Nat) (c : Cleanup) :
    CleanupStatement → RetentionWorld
  | .readConfig enabled =>
      match c.phase with
      | .begun =>
          if job.schedulingEnabled then
            w.setTransaction i
              (.cleanup ⟨some w.records.rows, if enabled then .enabled else .ended⟩)
          else w.setTransaction i (.cleanup { c with phase := .ended })
      | _ => w
  | .readClock =>
      match c.phase with
      | .enabled => w.setTransaction i (.cleanup { c with phase := .claiming w.clock [] })
      | _ => w
  | .claim artifactId =>
      match c.phase, w.locks artifactId, w.artifacts.find? artifactId with
      | .claiming now claimed, none, some artifact => claimRow job w i c now claimed artifact
      | _, _, _ => w
  | .endClaim =>
      match c.phase with
      | .claiming now claimed =>
          w.setTransaction i (.cleanup { c with phase := .deleting now claimed [] })
      | _ => w
  | .delete raises =>
      match c.phase with
      | .deleting now (artifact :: waiting) cleaned =>
          if raises then
            w.setTransaction i (.cleanup { c with phase := .deleting now waiting cleaned })
          else
            { w with objects := Function.update w.objects artifact.objectKey false }.setTransaction
              i (.cleanup { c with phase := .deleting now waiting (cleaned ++ [artifact]) })
      | _ => w
  | .commit =>
      match c.phase with
      | .deleting now [] cleaned =>
          { w with
            artifacts := cleaned.foldl (fun artifacts artifact =>
              artifacts.replace (markCleaned artifact now)) w.artifacts }.finish i
            (.cleanup { c with phase := .ended })
      | _ => w
  | .rollback => w.finish i (.cleanup { c with phase := .ended })

/-- A statement of `stream`. -/
def StreamStatement.perform (w : RetentionWorld) (i : Nat) (s : Stream) :
    StreamStatement → RetentionWorld
  | .find =>
      match s.phase with
      | .begun =>
          w.setTransaction i (.stream { s with
            phase := if (w.records.find? s.ticket.recordId).isSome then .found else .ended })
      | _ => w
  | .openObject =>
      match s.phase with
      | .found =>
          w.setTransaction i (.stream { s with
            phase := if w.objects s.ticket.objectKey then .opened else .ended })
      | _ => w
  | .complete =>
      match s.phase, w.records.find? s.ticket.recordId with
      | .opened, some record =>
          { w with records := w.records.replace { record with completed := true } }.setTransaction
            i (.stream { s with phase := .ended })
      | _, _ => w
  | .rollback => w.setTransaction i (.stream { s with phase := .ended })

/-- A new transaction; the number must not be in use. -/
def beginTransaction (w : RetentionWorld) (i : Nat) (t : RetentionTransaction) : RetentionWorld :=
  match w.transactions i with
  | none => w.setTransaction i t
  | some _ => w

def RetentionAction.perform (w : RetentionWorld) : RetentionAction → RetentionWorld
  | .tick now => { w with clock := now }
  | .publish artifact =>
      -- the object key is a unique column
      if w.artifacts.rows.any fun other => other.objectKey = artifact.objectKey then w
      else
        match w.artifacts.insert? artifact with
        | some artifacts =>
            { w with
              artifacts := artifacts
              objects := Function.update w.objects artifact.objectKey true }
        | none => w
  | .otherObjects objects => { w with objects := objects }
  | .beginDownload i userId artifactId ipAddress userAgent recordId =>
      beginTransaction w i
        (.download ⟨userId, artifactId, ipAddress, userAgent, recordId, .begun⟩)
  | .beginCleanup i scheduled =>
      beginTransaction w i (.cleanup ⟨none, if scheduled then .begun else .enabled⟩)
  | .beginStream i ticket => beginTransaction w i (.stream ⟨ticket, .begun⟩)
  | .download i s =>
      match w.transactions i with
      | some (.download d) => s.perform owners w i d
      | _ => w
  | .cleanup i s =>
      match w.transactions i with
      | some (.cleanup c) => s.perform job w i c
      | _ => w
  | .stream i s =>
      match w.transactions i with
      | some (.stream t) => s.perform w i t
      | _ => w

/-- The clock is monotone. -/
def RetentionAction.Enabled (w : RetentionWorld) : RetentionAction → Prop
  | .tick now => w.clock ≤ now
  | _ => True

/-- No two artifacts have one object key. -/
def UniqueKeys (artifacts : Table ArtifactRow) : Prop :=
  ∀ a ∈ artifacts, ∀ b ∈ artifacts, a.objectKey = b.objectKey → a = b

/-- Downloads, streams, clean-ups and the commits of others in any order. -/
def retentionSystem : System RetentionWorld RetentionAction where
  init w := UniqueKeys w.artifacts ∧ w.locks = (fun _ => none) ∧ w.transactions = fun _ => none
  step w a t := a.Enabled w ∧ t = a.perform job owners w

/-- A claim sees the tickets of its artifact that are in their lease: the read view was taken after
they were committed. -/
def TicketsVisible (w : RetentionWorld) : RetentionAction → Prop
  | .cleanup i (.claim artifactId) =>
      ∀ c now claimed view, w.transactions i = some (.cleanup c) →
        c.phase = .claiming now claimed → c.view = some view →
          ∀ record ∈ w.records, record.isActive artifactId (job.cutoff now) = true → record ∈ view
  | _ => True

end System

end WheelForge.Api
