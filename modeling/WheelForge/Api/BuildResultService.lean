import WheelForge.Api.BuildTaskService
import WheelForge.Python.Exceptions
import WheelForge.Relational.Numbered

/-!
# Reading the log of a task

`BuildResultService.logs` gives the rows of a task after a cursor, a page at a time. Of a log that
is numbered from one it gives the rows that follow (`logs_of_numbered`).
-/

set_option autoImplicit false

namespace WheelForge.Api

open WheelForge.Jobs
open WheelForge.Python (bind_ok raiseIf raiseIf_ok)
open WheelForge.Relational

/-- The rows of `build_logs` of a task, in the order of their commits. -/
def taskLogs (db : Database) (taskId : Uuid) : List BuildLog :=
  db.buildLogs.rows.filter fun row => row.buildTaskId = taskId

/-- `MAX_LOG_ROWS`. -/
def maxLogRows : Nat := 500

structure BuildLogView where
  sequence : Nat
  stage : String
  level : String
  message : String
  context : Option Json
  createdAt : DateTime

def logView (row : BuildLog) : BuildLogView where
  sequence := row.sequenceNo
  stage := row.stage
  level := row.level
  message := row.message
  context := row.contextJson
  createdAt := row.createdAt

/-- `findByBuildTaskIdAndSequenceNoGreaterThanOrderBySequenceNoAsc`, with the first page of
`MAX_LOG_ROWS`. -/
def logsAfter (db : Database) (taskId : Uuid) (afterSequence : Int) : List BuildLog :=
  (((taskLogs db taskId).filter fun row => afterSequence < row.sequenceNo).insertionSort
    fun row other => row.sequenceNo ≤ other.sequenceNo).take maxLogRows

/-- `BuildResultService.logs`. -/
def logs (db : Database) (userId taskId : Uuid) (afterSequence : Int) :
    Except ApiError (List BuildLogView) := do
  raiseIf (afterSequence < 0)
    (.badRequest "INVALID_LOG_CURSOR" "afterSequence must be non-negative")
  let _ ← activeOwnedTask db userId taskId
  return (logsAfter db taskId afterSequence).map logView

/-- The next rows of a numbered log. -/
theorem logsAfter_of_numbered {db : Database} {taskId : Uuid}
    (h : Numbered BuildLog.sequenceNo (taskLogs db taskId)) (cursor : Nat) :
    logsAfter db taskId cursor = ((taskLogs db taskId).drop cursor).take maxLogRows := by
  have hfilter := h.filter_lt cursor
  have hsorted : ((taskLogs db taskId).drop cursor).Pairwise
      fun row other => row.sequenceNo ≤ other.sequenceNo := h.pairwise.sublist (List.drop_sublist _ _)
  simp only [logsAfter, Int.ofNat_lt, hfilter, hsorted.insertionSort_eq]

/-- A request with a cursor that the log has reached, by the user of the task. -/
theorem logs_of_numbered {db : Database} {userId taskId : Uuid} {task : BuildTask}
    (h : Numbered BuildLog.sequenceNo (taskLogs db taskId))
    (htask : activeOwnedTask db userId taskId = .ok task) (cursor : Nat) :
    logs db userId taskId cursor =
      .ok ((((taskLogs db taskId).drop cursor).take maxLogRows).map logView) := by
  have hcursor : ¬ (cursor : Int) < 0 := by omega
  rw [logs, ← logsAfter_of_numbered h]
  exact bind_ok.2 ⟨(), raiseIf_ok.2 hcursor, bind_ok.2 ⟨task, htask, rfl⟩⟩

/-- What a request for a task was answered. -/
theorem logs_ok {db : Database} {userId taskId : Uuid} {afterSequence : Int}
    {views : List BuildLogView} (h : logs db userId taskId afterSequence = .ok views) :
    views = (logsAfter db taskId afterSequence).map logView := by
  rw [logs] at h
  obtain ⟨_, -, h⟩ := bind_ok.1 h
  obtain ⟨_, -, h⟩ := bind_ok.1 h
  cases h
  rfl

end WheelForge.Api
