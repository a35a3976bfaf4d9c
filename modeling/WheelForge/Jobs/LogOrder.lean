import Mathlib.Data.List.Infix
import WheelForge.Jobs.JobSystem
import WheelForge.Jobs.LogTransactions
import WheelForge.Relational.RowLocks

/-!
# The order of the log

A transaction between the lock and the commit is the only one of its task, so the number it read is
still the next one when it commits (`TransactionOk`). The committed rows of a task are numbered in
the order of their commits, a consistent read sees a prefix of them, and a reader that goes on from
the last number it saw receives them one after the other (`logs_complete`).
-/

set_option autoImplicit false

namespace WheelForge.Jobs

open WheelForge.Api (BuildLogView activeOwnedTask logView logs logsAfter_of_numbered
  logs_of_numbered logs_ok maxLogRows taskLogs)
open WheelForge.Relational
open WheelForge.Transition

section Rows

variable {db db' : Database} {taskId : Uuid}

theorem taskLogs_congr (h : db.buildLogs = db'.buildLogs) (taskId : Uuid) :
    taskLogs db taskId = taskLogs db' taskId := by
  rw [taskLogs, taskLogs, h]

/-- The log of a task after an insertion. -/
theorem taskLogs_insert {row : BuildLog} {buildLogs : Table BuildLog}
    (h : db.buildLogs.insert? row = some buildLogs) (taskId : Uuid) :
    taskLogs { db with buildLogs := buildLogs } taskId =
      if row.buildTaskId = taskId then taskLogs db taskId ++ [row] else taskLogs db taskId := by
  simp only [taskLogs, (Table.insert?_eq_some h).2, List.filter_append]
  by_cases htask : row.buildTaskId = taskId <;> simp [htask]

theorem maxSequence_of_numbered (h : Numbered BuildLog.sequenceNo (taskLogs db taskId)) :
    JobRepository.maxSequence db taskId = (taskLogs db taskId).length := h.foldl_max

theorem numbered_views {l : List BuildLog} (h : Numbered BuildLog.sequenceNo l) :
    Numbered BuildLogView.sequence (l.map logView) := by
  rw [Numbered, List.map_map, List.length_map, ← h]
  rfl

end Rows

/-! ## The invariant -/

/-- A transaction that has the lock, and the number that it read. -/
structure TransactionOk (db : Database) (locks : Uuid → Option Nat) (i : Nat) (t : LogTransaction) :
    Prop where
  locked : t.phase.holdsLock = true → locks t.taskId = some i
  sequenced : ∀ sequence, t.phase = .sequenced sequence →
    sequence = (taskLogs db t.taskId).length + 1
  inserted : ∀ row, t.phase = .inserted row →
    row.buildTaskId = t.taskId ∧ row.sequenceNo = (taskLogs db t.taskId).length + 1

/-- What a reader has received, and what it reads, are prefixes of the log. -/
structure ReaderOk (db : Database) (reader : LogReader) : Prop where
  received : reader.received <+: (taskLogs db reader.taskId).map logView
  view : ∀ view, reader.view = some view →
    taskLogs view reader.taskId <+: taskLogs db reader.taskId ∧
    reader.received <+: (taskLogs view reader.taskId).map logView

structure LogInv (w : LogWorld) : Prop where
  numbered : ∀ taskId, Numbered BuildLog.sequenceNo (taskLogs w.db taskId)
  transactions : ∀ i t, w.transactions i = some t → TransactionOk w.db w.locks i t
  readers : ∀ r reader, w.readers r = some reader → ReaderOk w.db reader

section Steps

variable {w : LogWorld} {repo : JobRepository} {i : Nat} {t : LogTransaction}

/-- A phase without the lock asks for nothing. -/
theorem transactionOk_of_free {db : Database} {locks : Uuid → Option Nat}
    (h : t.phase.holdsLock = false) : TransactionOk db locks i t where
  locked hheld := by rw [h] at hheld; cases hheld
  sequenced sequence hphase := by rw [hphase] at h; cases h
  inserted row hphase := by rw [hphase] at h; cases h

theorem LogInv.setTransaction (h : LogInv w) (ht : TransactionOk w.db w.locks i t) :
    LogInv (w.setTransaction i t) where
  numbered := h.numbered
  transactions := forall_update ht fun j y _ hj => h.transactions j y hj
  readers := h.readers

/-- A transaction that ends gives its lock back; the others keep theirs. -/
theorem LogInv.finish (h : LogInv w) {phase : LogPhase} (hphase : phase.holdsLock = false) :
    LogInv (w.finish i t phase) where
  numbered := h.numbered
  transactions := by
    refine forall_update (transactionOk_of_free hphase) fun j y hne hj => ?_
    obtain ⟨hlocked, hsequenced, hinserted⟩ := h.transactions j y hj
    refine ⟨fun hheld => ?_, hsequenced, hinserted⟩
    have hlock := hlocked hheld
    show (if w.locks y.taskId = some i then none else w.locks y.taskId) = some j
    rw [hlock, if_neg fun heq => hne (Option.some.inj heq)]
  readers := h.readers

theorem LogInv.setReader (h : LogInv w) {r : Nat} {reader : LogReader} (hr : ReaderOk w.db reader) :
    LogInv (w.setReader r reader) where
  numbered := h.numbered
  transactions := h.transactions
  readers := forall_update hr fun j y _ hj => h.readers j y hj

theorem ReaderOk.grow {db db' : Database} {reader : LogReader} (h : ReaderOk db reader)
    (hlogs : taskLogs db reader.taskId <+: taskLogs db' reader.taskId) : ReaderOk db' reader where
  received := h.received.trans (hlogs.map _)
  view view hview := ⟨(h.view view hview).1.trans hlogs, (h.view view hview).2⟩

/-- Two transactions that hold a lock are of two tasks. -/
theorem LogInv.taskId_ne (h : LogInv w) {j : Nat} {u : LogTransaction}
    (hi : w.transactions i = some t) (hj : w.transactions j = some u) (hne : j ≠ i)
    (hheld : t.phase.holdsLock = true) (hheld' : u.phase.holdsLock = true) :
    u.taskId ≠ t.taskId := by
  intro heq
  have hlock := (h.transactions i t hi).locked hheld
  have hlock' := (h.transactions j u hj).locked hheld'
  rw [heq, hlock] at hlock'
  exact hne (Option.some.inj hlock').symm

/-- Other columns. -/
theorem LogInv.setDb (h : LogInv w) {db : Database} (hlogs : db.buildLogs = w.db.buildLogs) :
    LogInv { w with db := db } where
  numbered taskId := by
    show Numbered BuildLog.sequenceNo (taskLogs db taskId)
    rw [taskLogs_congr hlogs]
    exact h.numbered taskId
  transactions j u hj := by
    obtain ⟨hlocked, hsequenced, hinserted⟩ := h.transactions j u hj
    refine ⟨hlocked, ?_, ?_⟩
    · rw [taskLogs_congr hlogs]
      exact hsequenced
    · rw [taskLogs_congr hlogs]
      exact hinserted
  readers r reader hr :=
    (h.readers r reader hr).grow (by rw [taskLogs_congr hlogs])

/-- The lock is taken. -/
theorem LogInv.lock (h : LogInv w) (hfree : w.locks t.taskId = none) :
    LogInv ({ w with locks := Function.update w.locks t.taskId (some i) }.setTransaction i
      { t with phase := .locked }) where
  numbered := h.numbered
  transactions := by
    refine forall_update ⟨fun _ => Function.update_self .., nofun, nofun⟩ fun j u hne hj => ?_
    obtain ⟨hlocked, hsequenced, hinserted⟩ := h.transactions j u hj
    refine ⟨fun hheld => ?_, hsequenced, hinserted⟩
    have hlock := hlocked hheld
    -- nobody else has the lock of this task
    have htask : u.taskId ≠ t.taskId := by
      intro heq
      rw [heq, hfree] at hlock
      cases hlock
    show Function.update w.locks t.taskId (some i) u.taskId = some j
    rw [Function.update_of_ne htask, hlock]
  readers := h.readers

/-- The commit of a row: its number is the next one of its task, and no other transaction of the
task has read a number. -/
theorem LogInv.commit (h : LogInv w) (hi : w.transactions i = some t) {row : BuildLog}
    (hphase : t.phase = .inserted row) {db : Database} (hlogs : db.buildLogs = w.db.buildLogs)
    {buildLogs : Table BuildLog} (hinsert : db.buildLogs.insert? row = some buildLogs) :
    LogInv ({ w with db := { db with buildLogs := buildLogs } }.finish i t .committed) := by
  obtain ⟨hrow, hnumber⟩ := (h.transactions i t hi).inserted row hphase
  have hheld : t.phase.holdsLock = true := by rw [hphase]; rfl
  have hafter : ∀ taskId, taskLogs { db with buildLogs := buildLogs } taskId =
      if t.taskId = taskId then taskLogs w.db taskId ++ [row] else taskLogs w.db taskId := by
    intro taskId
    rw [taskLogs_insert hinsert, hrow, taskLogs_congr hlogs]
  have hother : ∀ taskId, taskId ≠ t.taskId →
      taskLogs { db with buildLogs := buildLogs } taskId = taskLogs w.db taskId := by
    intro taskId hne
    rw [hafter, if_neg hne.symm]
  constructor
  · intro taskId
    show Numbered BuildLog.sequenceNo (taskLogs { db with buildLogs := buildLogs } taskId)
    by_cases htask : t.taskId = taskId
    · subst htask
      rw [hafter, if_pos rfl]
      exact (h.numbered _).concat hnumber
    · rw [hother _ fun heq => htask heq.symm]
      exact h.numbered taskId
  · refine forall_update (transactionOk_of_free rfl) fun j u hne hj => ?_
    obtain ⟨hlocked, hsequenced, hinserted⟩ := h.transactions j u hj
    have hsame : u.phase.holdsLock = true →
        taskLogs { db with buildLogs := buildLogs } u.taskId = taskLogs w.db u.taskId :=
      fun hheld' => hother _ (h.taskId_ne hi hj hne hheld hheld')
    refine ⟨fun hheld' => ?_, fun sequence hseq => ?_, fun row' hins => ?_⟩
    · show (if w.locks u.taskId = some i then none else w.locks u.taskId) = some j
      rw [hlocked hheld', if_neg fun heq => hne (Option.some.inj heq)]
    · show sequence = (taskLogs { db with buildLogs := buildLogs } u.taskId).length + 1
      rw [hsame (by rw [hseq]; rfl)]
      exact hsequenced sequence hseq
    · show _ ∧ row'.sequenceNo = (taskLogs { db with buildLogs := buildLogs } u.taskId).length + 1
      rw [hsame (by rw [hins]; rfl)]
      exact hinserted row' hins
  · intro r reader hr
    refine (h.readers r reader hr).grow ?_
    show _ <+: taskLogs { db with buildLogs := buildLogs } reader.taskId
    by_cases htask : t.taskId = reader.taskId
    · rw [hafter, if_pos htask]
      exact List.prefix_append _ _
    · rw [hother _ fun heq => htask heq.symm]

/-- One statement. -/
theorem LogInv.statement (h : LogInv w) (hi : w.transactions i = some t) {s : LogStatement}
    (henabled : (LogAction.statement i s).Enabled w) : LogInv (s.perform repo w i t) := by
  have hkeep : ∀ phase : LogPhase, phase.holdsLock = false →
      LogInv (w.setTransaction i { t with phase := phase }) :=
    fun phase hphase => h.setTransaction (transactionOk_of_free hphase)
  cases s with
  | own =>
      simp only [LogStatement.perform]
      split
      · split
        · exact hkeep _ rfl
        · exact h.finish rfl
      · exact h
  | lock =>
      simp only [LogStatement.perform]
      split
      · next _ hfree =>
        split
        · split
          · exact h.lock hfree
          · exact h.finish rfl
        · exact h.finish rfl
      · exact h
  | readMax =>
      simp only [LogStatement.perform]
      split
      · next hphase =>
        -- the consistent read starts after the lock was taken
        refine h.setTransaction ⟨fun _ => ?_, fun sequence hsequence => ?_, nofun⟩
        · exact (h.transactions i t hi).locked (by rw [hphase]; rfl)
        · cases hsequence
          exact congrArg (· + 1) (maxSequence_of_numbered (h.numbered t.taskId))
      · exact h
  | insert =>
      simp only [LogStatement.perform]
      split
      · next sequence hphase =>
        split
        · exact h.finish rfl
        · next context _ =>
          split
          · exact h.finish rfl
          · refine h.setTransaction ⟨fun _ => ?_, nofun, fun row hrow => ?_⟩
            · exact (h.transactions i t hi).locked (by rw [hphase]; rfl)
            · cases hrow
              exact ⟨rfl, (h.transactions i t hi).sequenced sequence hphase⟩
      · exact h
  | commit db =>
      simp only [LogStatement.perform]
      split
      · next row hphase =>
        split
        · next buildLogs hinsert => exact h.commit hi hphase henabled.1 hinsert
        · exact h.finish rfl
      · exact h
  | rollback =>
      simp only [LogStatement.perform]
      split
      · exact h
      · exact h.finish rfl

/-- The cursor of a reader is the number of rows it has received. -/
theorem LogInv.cursor_eq (h : LogInv w) {r : Nat} {reader : LogReader}
    (hr : w.readers r = some reader) : reader.cursor = reader.received.length :=
  ((numbered_views (h.numbered reader.taskId)).of_initial (h.readers r reader hr).received).getLast?

/-- The answer of a request continues what was received. -/
theorem LogInv.fetch (h : LogInv w) {r : Nat} {reader : LogReader} (hr : w.readers r = some reader)
    {view : Database} (hview : reader.view = some view) {views : List BuildLogView}
    (hviews : logs view reader.userId reader.taskId reader.cursor = .ok views) :
    ReaderOk w.db { reader with received := reader.received ++ views, view := none } := by
  obtain ⟨hlead, hreceived⟩ := (h.readers r reader hr).view view hview
  refine ⟨?_, nofun⟩
  have hnumbered := (h.numbered reader.taskId).of_initial hlead
  have hnext : views = (((taskLogs view reader.taskId).drop reader.received.length).take
      maxLogRows).map logView := by
    rw [logs_ok hviews, logsAfter_of_numbered hnumbered, h.cursor_eq hr]
  refine List.IsPrefix.trans ?_ (hlead.map logView)
  show reader.received ++ views <+: (taskLogs view reader.taskId).map logView
  obtain ⟨rest, hrest⟩ := hreceived
  have hdrop : ((taskLogs view reader.taskId).drop reader.received.length).map logView = rest := by
    rw [List.map_drop, ← hrest, List.drop_left]
  rw [hnext, List.map_take, hdrop, ← hrest]
  exact List.prefix_append_right_inj _ |>.2 (List.take_prefix _ _)

theorem LogInv.step (h : LogInv w) {a : LogAction} (henabled : a.Enabled w) :
    LogInv (a.perform repo w) := by
  cases a with
  | begin i call =>
      simp only [LogAction.perform]
      split
      · exact h.setTransaction (transactionOk_of_free rfl)
      · exact h
  | statement i s =>
      simp only [LogAction.perform]
      split
      · next t hi => exact h.statement hi henabled
      · exact h
  | other db => exact h.setDb henabled.1
  | subscribe r userId taskId =>
      simp only [LogAction.perform]
      split
      · exact h.setReader ⟨List.nil_prefix, nofun⟩
      · exact h
  | poll r =>
      simp only [LogAction.perform]
      split
      · next reader hr =>
        have hreceived := (h.readers r reader hr).received
        refine h.setReader ⟨hreceived, fun view hview => ?_⟩
        cases hview
        exact ⟨List.prefix_refl _, hreceived⟩
      · exact h
  | fetch r =>
      simp only [LogAction.perform]
      split
      · next reader hr =>
        split
        · next view hview =>
          split
          · next views hviews => exact h.setReader (h.fetch hr hview hviews)
          · exact h.setReader ⟨(h.readers r reader hr).received, nofun⟩
        · exact h
      · exact h

theorem logInv_of_reachable (h : (logSystem repo).Reachable System.Any w) : LogInv w := by
  refine h.invariant (P := LogInv) ?_ ?_
  · rintro s ⟨hlogs, -, htransactions, hreaders⟩
    have hempty : ∀ taskId, taskLogs s.db taskId = [] := by
      intro taskId
      rw [taskLogs, hlogs]
      rfl
    refine ⟨fun taskId => ?_, fun i t hi => ?_, fun r reader hr => ?_⟩
    · rw [hempty]
      exact numbered_nil
    · rw [htransactions] at hi
      cases hi
    · rw [hreaders] at hr
      cases hr
  · rintro s a t hs - ⟨henabled, rfl⟩
    exact hs.step henabled

end Steps

/-- The committed rows of every task are numbered from one without gap or repeat; what a reader
has received is a prefix of the log, and a request with its cursor is answered with the rows after
it. -/
theorem logs_complete (repo : JobRepository) {w : LogWorld}
    (h : (logSystem repo).Reachable System.Any w) :
    (∀ taskId, (taskLogs w.db taskId).map BuildLog.sequenceNo =
      List.range' 1 (taskLogs w.db taskId).length) ∧
    ∀ r reader, w.readers r = some reader →
      reader.received <+: (taskLogs w.db reader.taskId).map logView ∧
      reader.cursor = reader.received.length ∧
      ∀ task, activeOwnedTask w.db reader.userId reader.taskId = .ok task →
        logs w.db reader.userId reader.taskId reader.cursor =
          .ok ((((taskLogs w.db reader.taskId).drop reader.received.length).take maxLogRows).map
            logView) := by
  have hinv := logInv_of_reachable h
  refine ⟨hinv.numbered, fun r reader hr => ⟨(hinv.readers r reader hr).received,
    hinv.cursor_eq hr, fun task htask => ?_⟩⟩
  rw [logs_of_numbered (hinv.numbered _) htask, hinv.cursor_eq hr]

/-! ## Transactions on their own -/

section Serial

variable {repo : JobRepository} {w : LogWorld} {i : Nat}

/-- Statements of one transaction in a row. -/
def performStatements (repo : JobRepository) (w : LogWorld) (i : Nat)
    (statements : List LogStatement) : LogWorld :=
  statements.foldl (fun w s => (LogAction.statement i s).perform repo w) w

theorem performStatements_cons {t : LogTransaction} (hi : w.transactions i = some t)
    (s : LogStatement) (rest : List LogStatement) :
    performStatements repo w i (s :: rest) =
      performStatements repo (s.perform repo w i t) i rest := by
  simp only [performStatements, List.foldl_cons, LogAction.perform, hi]

@[simp] theorem setTransaction_transactions_self (t : LogTransaction) :
    (w.setTransaction i t).transactions i = some t := Function.update_self ..

@[simp] theorem finish_transactions_self (t : LogTransaction) (phase : LogPhase) :
    (w.finish i t phase).transactions i = some { t with phase := phase } :=
  Function.update_self ..

/-- A transaction that was rolled back does nothing more. -/
theorem performStatements_rolledBack {t : LogTransaction} (hi : w.transactions i = some t)
    (hphase : t.phase = .rolledBack) (statements : List LogStatement) :
    (performStatements repo w i statements).db = w.db := by
  induction statements generalizing w t with
  | nil => rfl
  | cons s rest ih =>
      rw [performStatements_cons hi]
      cases s with
      | rollback =>
          simp only [LogStatement.perform, hphase]
          rw [ih (finish_transactions_self t .rolledBack) rfl]
          rfl
      | _ =>
          simp only [LogStatement.perform, hphase]
          exact ih hi hphase

theorem duplicateLog_eq_true {db : Database} {row : BuildLog} : duplicateLog db row = true ↔
    ∃ other ∈ db.buildLogs.rows, other.id = row.id ∨
      other.buildTaskId = row.buildTaskId ∧ other.sequenceNo = row.sequenceNo := by
  simp [duplicateLog]

/-- The next number is new. -/
theorem duplicateLog_next {db : Database} {call : LogCall} {context : Option Json} :
    duplicateLog db (logRow repo call (JobRepository.maxSequence db call.taskId + 1) context) =
      true ↔ ∃ other ∈ db.buildLogs.rows, other.id = call.rowId := by
  have hmax : ∀ other ∈ db.buildLogs.rows, other.buildTaskId = call.taskId →
      other.sequenceNo ≤ JobRepository.maxSequence db call.taskId := by
    intro other hother htask
    have hmem : other.sequenceNo ∈ ((db.buildLogs.rows.filter fun r =>
        r.buildTaskId = call.taskId).map BuildLog.sequenceNo) :=
      List.mem_map_of_mem (List.mem_filter.2 ⟨hother, decide_eq_true htask⟩)
    exact le_foldl_max.2 _ hmem
  rw [duplicateLog_eq_true]
  constructor
  · rintro ⟨other, hother, hid | ⟨htask, hsequence⟩⟩
    · exact ⟨other, hother, hid⟩
    · exact absurd (hsequence ▸ hmax other hother htask) (Nat.not_succ_le_self _)
  · rintro ⟨other, hother, hid⟩
    exact ⟨other, hother, Or.inl hid⟩

/-- The insertion and the commit behind the read of the number. -/
theorem insert_serial (call : LogCall) {db : Database} (hdb : w.db = db) (hi : w.transactions i =
      some ⟨call, .sequenced (JobRepository.maxSequence db call.taskId + 1)⟩) :
    (performStatements repo w i [.insert, .commit db]).db =
      match repo.safeContext call.context with
      | .error _ => db
      | .ok context =>
          match db.buildLogs.insert?
            (logRow repo call (JobRepository.maxSequence db call.taskId + 1) context) with
          | none => db
          | some buildLogs => { db with buildLogs := buildLogs } := by
  rw [performStatements_cons hi]
  simp only [LogStatement.perform, hdb]
  cases repo.safeContext call.context with
  | error e => exact (performStatements_rolledBack (finish_transactions_self _ _) rfl _).trans hdb
  | ok context =>
      dsimp only
      by_cases hduplicate : ∃ other ∈ db.buildLogs.rows, other.id = call.rowId
      · rw [if_pos (duplicateLog_next.2 hduplicate),
          performStatements_rolledBack (finish_transactions_self _ _) rfl]
        have htaken : db.buildLogs.insert? (logRow repo call
            (JobRepository.maxSequence db call.taskId + 1) context) = none := by
          obtain ⟨other, hother, hid⟩ := hduplicate
          exact Table.insert?_of_taken fun hnone =>
            Table.find?_eq_none_iff.1 hnone other hother hid
        rw [htaken]
        exact hdb
      · rw [if_neg fun h => hduplicate (duplicateLog_next.1 h),
          performStatements_cons (setTransaction_transactions_self _)]
        simp only [LogStatement.perform]
        cases db.buildLogs.insert? (logRow repo call
            (JobRepository.maxSequence db call.taskId + 1) context) with
        | none => exact hdb
        | some buildLogs => rfl

/-- Statements that no other transaction comes between are `append_log` of the repository. -/
theorem appendLog_serial {call : LogCall} (hi : w.transactions i = some ⟨call, .begun⟩)
    (hfree : w.locks call.taskId = none) :
    (performStatements repo w i [.own, .lock, .readMax, .insert, .commit w.db]).db =
      (repo.appendLog call.lease call.stage call.level call.message call.context call.rowId
        call.now).commit w.db := by
  rw [performStatements_cons hi, Txn.commit, JobRepository.appendLog]
  simp only [LogStatement.perform]
  split
  · rw [performStatements_cons (setTransaction_transactions_self _)]
    have hunlocked : (w.setTransaction i ⟨call, .owning⟩).locks call.taskId = none := hfree
    have hdb : (w.setTransaction i ⟨call, .owning⟩).db = w.db := rfl
    simp only [LogStatement.perform, hunlocked, hdb, JobRepository.appendLogRow]
    rw [show call.lease.subjectId = call.taskId from rfl]
    cases w.db.task? call.taskId with
    | none => exact performStatements_rolledBack (finish_transactions_self _ _) rfl _
    | some task =>
        dsimp only
        by_cases hexecution : task.executionId = some call.lease.executionId
        · rw [if_pos hexecution, if_neg (not_not.2 hexecution),
            performStatements_cons (setTransaction_transactions_self _)]
          simp only [LogStatement.perform]
          refine Eq.trans (insert_serial call ?_ ?_) ?_
          · rfl
          · exact setTransaction_transactions_self _
          cases repo.safeContext call.context with
          | error e => rfl
          | ok context =>
              dsimp only
              simp only [logRow]
              generalize w.db.buildLogs.insert? _ = inserted
              cases inserted with
              | none => rfl
              | some buildLogs => rfl
        · rw [if_neg hexecution, if_pos hexecution]
          exact performStatements_rolledBack (finish_transactions_self _ _) rfl _
  · exact performStatements_rolledBack (finish_transactions_self _ _) rfl _

end Serial

/-! ## Two executions -/

/-- A running build job and its task, held by an execution. -/
def runningBuild (executionId : Uuid) (buildLogs : Table BuildLog) : Database :=
  { Database.empty with
    buildLogs := buildLogs
    buildJobs := ⟨[
      { Api.newJob "b" .build "t" .null 0 with
        status := .running
        leaseOwner := some "w"
        executionId := some executionId
        leaseExpiresAt := some 100 }], List.nodup_singleton _⟩
    buildTasks := ⟨[
      { id := "t", userId := "u", requirementFileId := "f", targetProfileId := "profile",
        sourceTaskId := none, executionId := some executionId, status := .resolving, progress := 10,
        currentStage := none, solveMode := "STRICT", targetSnapshot := .null,
        cancelRequested := false, failureCode := none, failureMessage := none, createdAt := 0,
        startedAt := none, finishedAt := none, deletedAt := none, versionNo := 0 }],
      List.nodup_singleton _⟩ }

def sampleCall (executionId rowId : Uuid) : LogCall where
  lease := sampleLease "b" .build "t" executionId 1 none
  stage := "RESOLVING"
  level := "INFO"
  message := "started"
  context := none
  rowId := rowId
  now := 50

def runningWorld : LogWorld where
  db := runningBuild "e1" Table.empty
  locks := fun _ => none
  transactions := fun _ => none
  readers := fun _ => none

def firstLog : Table BuildLog :=
  ⟨[logRow sampleRepository (sampleCall "e1" "l1") 1 none], List.nodup_singleton _⟩

/-- A reader subscribes, an execution logs, the reader starts a request, another execution takes
the task over and logs, and the request is answered. -/
def logTakeoverActions : List LogAction :=
  [.subscribe 0 "u" "t", .begin 0 (sampleCall "e1" "l1"), .statement 0 .own, .statement 0 .lock,
    .statement 0 .readMax, .statement 0 .insert,
    .statement 0 (.commit (runningBuild "e1" Table.empty)), .poll 0,
    .other (runningBuild "e2" firstLog), .begin 1 (sampleCall "e2" "l2"), .statement 1 .own,
    .statement 1 .lock, .statement 1 .readMax, .statement 1 .insert, .fetch 0,
    .statement 1 (.commit (runningBuild "e2" firstLog))]

def logTakeoverWorld : LogWorld :=
  logTakeoverActions.foldl (fun w a => a.perform sampleRepository w) runningWorld

theorem release_single {w : LogWorld} {i : Nat} {locked : Uuid}
    (h : w.locks = Function.update (fun _ => none) locked (some i)) (taskId : Uuid) :
    (w.release i).locks taskId = none := by
  simp only [LogWorld.release, h]
  by_cases heq : taskId = locked
  · simp [heq]
  · simp [Function.update_of_ne heq]

theorem logTakeoverActions_enabled :
    System.Along (fun w a => a.perform sampleRepository w) (fun w a => a.Enabled w) runningWorld
      logTakeoverActions := by
  refine ⟨trivial, trivial, trivial, trivial, trivial, trivial, ⟨rfl, ?_⟩, trivial, ⟨?_, ?_⟩,
    trivial, trivial, trivial, trivial, trivial, trivial, ⟨?_, ?_⟩, trivial⟩
  · exact fun _ _ _ _ => rfl
  · exact Table.ext_rows rfl
  · intro taskId holder hlock
    -- the only lock was given back by the commit
    exact absurd ((release_single rfl taskId).symm.trans hlock) nofun
  · exact Table.ext_rows rfl
  · exact fun _ _ _ _ => rfl

theorem logTakeoverWorld_reachable :
    (logSystem sampleRepository).Reachable System.Any logTakeoverWorld := by
  have hstep : ∀ (w : LogWorld) (a : LogAction), a.Enabled w → System.Any w a ∧
      (logSystem sampleRepository).step w a (a.perform sampleRepository w) :=
    fun _ _ henabled => ⟨trivial, henabled, rfl⟩
  exact System.Reachable.foldl hstep (System.Reachable.of_init ⟨rfl, rfl, rfl, rfl⟩)
    logTakeoverActions_enabled

/-- The reader that asked between the two commits goes on with the second row. -/
theorem logs_complete_takeover :
    (taskLogs logTakeoverWorld.db "t").map BuildLog.sequenceNo = List.range' 1 2 ∧
      (logTakeoverWorld.readers 0).map LogReader.cursor = some 1 ∧
      logs logTakeoverWorld.db "u" "t" 1 =
        .ok [logView (logRow sampleRepository (sampleCall "e2" "l2") 2 none)] := by
  obtain ⟨hnumbered, hreaders⟩ := logs_complete sampleRepository logTakeoverWorld_reachable
  have hreader : logTakeoverWorld.readers 0 = some ⟨"u", "t",
      [logView (logRow sampleRepository (sampleCall "e1" "l1") 1 none)], none⟩ := rfl
  obtain ⟨-, hcursor, hlogs⟩ := hreaders 0 _ hreader
  refine ⟨hnumbered "t", ?_, ?_⟩
  · rw [hreader, Option.map_some, hcursor]
    rfl
  · exact hlogs _ rfl

end WheelForge.Jobs
