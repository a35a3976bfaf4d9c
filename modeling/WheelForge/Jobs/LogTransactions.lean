import WheelForge.Api.BuildResultService
import WheelForge.Jobs.Repository
import WheelForge.Transition.System

/-!
# The transactions that write the log of a task

`append_log`, `advance_build` and `persist_resolution` end in `_append_log`: it locks the row of the
task, reads the greatest sequence number of the log and inserts the row with the next one. The lock
is held until the commit; other transactions run between any two statements, and so do readers of
`BuildResultService.logs`, whose consistent reads see what is committed when they start.
-/

set_option autoImplicit false

namespace WheelForge.Jobs

open WheelForge.Api (BuildLogView activeOwnedTask logs)
open WheelForge.Relational
open WheelForge.Transition

/-! ## The world -/

/-- Where a log-writing transaction is. -/
inductive LogPhase where
  | begun
  /-- The job row is owned by the lease. -/
  | owning
  /-- The row of the task is locked and has the execution of the lease. -/
  | locked
  | sequenced (sequence : Nat)
  | inserted (row : BuildLog)
  | committed
  /-- An exception was raised: `LostLeaseError`, a duplicate key, or any other. -/
  | rolledBack

/-- The transaction holds the lock of the row of its task. -/
def LogPhase.holdsLock : LogPhase → Bool
  | .locked | .sequenced _ | .inserted _ => true
  | _ => false

/-- What a call of `_append_log` is given. -/
structure LogCall where
  lease : JobLease
  stage : String
  level : String
  message : String
  context : Option Json
  rowId : Uuid
  now : DateTime

structure LogTransaction extends LogCall where
  phase : LogPhase

/-- The log rows that are in a transaction's task. -/
def LogCall.taskId (call : LogCall) : Uuid := call.lease.subjectId

/-- A reader of the log of a task: what it has seen, and its consistent read while a request runs. -/
structure LogReader where
  userId : Uuid
  taskId : Uuid
  received : List BuildLogView
  view : Option Database

/-- The last sequence number that the reader saw. -/
def LogReader.cursor (reader : LogReader) : Nat :=
  (reader.received.getLast?.map BuildLogView.sequence).getD 0

structure LogWorld where
  /-- What is committed. -/
  db : Database
  /-- The holder of the lock of the row of a task. -/
  locks : Uuid → Option Nat
  transactions : Nat → Option LogTransaction
  readers : Nat → Option LogReader

namespace LogWorld

def setTransaction (w : LogWorld) (i : Nat) (t : LogTransaction) : LogWorld :=
  { w with transactions := Function.update w.transactions i (some t) }

def setReader (w : LogWorld) (r : Nat) (reader : LogReader) : LogWorld :=
  { w with readers := Function.update w.readers r (some reader) }

/-- The locks without those that a transaction holds. -/
def release (w : LogWorld) (i : Nat) : LogWorld :=
  { w with locks := fun taskId => if w.locks taskId = some i then none else w.locks taskId }

/-- A transaction that ends. -/
def finish (w : LogWorld) (i : Nat) (t : LogTransaction) (phase : LogPhase) : LogWorld :=
  (w.release i).setTransaction i { t with phase := phase }

end LogWorld

/-! ## Statements -/

/-- The statements of a transaction. -/
inductive LogStatement where
  /-- `_owns`, or the update of the job row in `advance_build`. -/
  | own
  /-- `select(build_tasks.c.id) ... with_for_update()`, and the check that it gave a row. -/
  | lock
  /-- `coalesce(max(sequence_no), 0) + 1`. -/
  | readMax
  | insert
  /-- The commit, with what the transaction wrote to other tables. -/
  | commit (db : Database)
  /-- Any exception. -/
  | rollback

inductive LogAction where
  | begin (i : Nat) (call : LogCall)
  | statement (i : Nat) (s : LogStatement)
  /-- The commit of a transaction that writes no log row. -/
  | other (db : Database)
  | subscribe (r : Nat) (userId taskId : Uuid)
  /-- A request of a reader starts. -/
  | poll (r : Nat)
  /-- It is answered. -/
  | fetch (r : Nat)

section System

variable (repo : JobRepository)

/-- The row that `_append_log` inserts. -/
def logRow (call : LogCall) (sequence : Nat) (context : Option Json) : BuildLog where
  id := call.rowId
  buildTaskId := call.taskId
  sequenceNo := sequence
  stage := bounded call.stage 50
  level := bounded call.level 20
  message := repo.sanitizeText call.message 4000
  contextJson := context
  createdAt := call.now

/-- The unique keys of `build_logs`: the id, and the task with the sequence number. -/
def duplicateLog (db : Database) (row : BuildLog) : Bool :=
  db.buildLogs.rows.any fun other => other.id = row.id ||
    (other.buildTaskId = row.buildTaskId && other.sequenceNo = row.sequenceNo)

/-- A statement of a transaction; one that has to wait for a lock leaves it where it is. -/
def LogStatement.perform (w : LogWorld) (i : Nat) (t : LogTransaction) : LogStatement → LogWorld
  | .own =>
      match t.phase with
      | .begun =>
          if owns w.db t.lease t.now then w.setTransaction i { t with phase := .owning }
          else w.finish i t .rolledBack
      | _ => w
  | .lock =>
      match t.phase, w.locks t.taskId with
      | .owning, none =>
          match w.db.task? t.taskId with
          | some task =>
              if task.executionId = some t.lease.executionId then
                { w with locks := Function.update w.locks t.taskId (some i) }.setTransaction i
                  { t with phase := .locked }
              else w.finish i t .rolledBack
          | none => w.finish i t .rolledBack
      | _, _ => w
  | .readMax =>
      match t.phase with
      | .locked =>
          w.setTransaction i
            { t with phase := .sequenced (JobRepository.maxSequence w.db t.taskId + 1) }
      | _ => w
  | .insert =>
      match t.phase with
      | .sequenced sequence =>
          match repo.safeContext t.context with
          | .error _ => w.finish i t .rolledBack
          | .ok context =>
              if duplicateLog w.db (logRow repo t.toLogCall sequence context) then
                w.finish i t .rolledBack
              else w.setTransaction i
                { t with phase := .inserted (logRow repo t.toLogCall sequence context) }
      | _ => w
  | .commit db =>
      match t.phase with
      | .inserted row =>
          match db.buildLogs.insert? row with
          | some buildLogs =>
              { w with db := { db with buildLogs := buildLogs } }.finish i t .committed
          -- a row of another task with this id was committed in between
          | none => w.finish i t .rolledBack
      | _ => w
  | .rollback =>
      match t.phase with
      | .committed => w
      | _ => w.finish i t .rolledBack

def LogAction.perform (w : LogWorld) : LogAction → LogWorld
  | .begin i call =>
      match w.transactions i with
      | none => w.setTransaction i ⟨call, .begun⟩
      | some _ => w
  | .statement i s =>
      match w.transactions i with
      | some t => s.perform repo w i t
      | none => w
  | .other db => { w with db := db }
  | .subscribe r userId taskId =>
      match w.readers r with
      | none => w.setReader r ⟨userId, taskId, [], none⟩
      | some _ => w
  | .poll r =>
      match w.readers r with
      | some reader => w.setReader r { reader with view := some w.db }
      | none => w
  | .fetch r =>
      match w.readers r with
      | some reader =>
          match reader.view with
          | some view =>
              match logs view reader.userId reader.taskId reader.cursor with
              | .ok views =>
                  w.setReader r { reader with received := reader.received ++ views, view := none }
              | .error _ => w.setReader r { reader with view := none }
          | none => w
      | none => w

/-- A commit of other columns leaves the log and the task rows that are locked alone. -/
def LeavesLocked (w : LogWorld) (i : Option Nat) (db : Database) : Prop :=
  db.buildLogs = w.db.buildLogs ∧
    ∀ taskId holder, w.locks taskId = some holder → i ≠ some holder →
      db.task? taskId = w.db.task? taskId

def LogAction.Enabled (w : LogWorld) : LogAction → Prop
  | .statement i (.commit db) => LeavesLocked w (some i) db
  | .other db => LeavesLocked w none db
  | _ => True

/-- Log-writing transactions of any executions, other transactions and readers in any order. -/
def logSystem : System LogWorld LogAction where
  init w := w.db.buildLogs = Table.empty ∧ w.locks = (fun _ => none) ∧
    w.transactions = (fun _ => none) ∧ w.readers = fun _ => none
  step w a t := a.Enabled w ∧ t = a.perform repo w

end System

end WheelForge.Jobs
