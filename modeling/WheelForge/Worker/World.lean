import WheelForge.Jobs.RunningLease
import WheelForge.Worker.Pipeline

/-!
# One worker among the others

`Answers` says how the calls of a worker are answered while the database is available. Between two
calls, and during a call that does not touch the database, the other workers and the API take any
steps (`Beside`), and the heartbeat thread of the worker renews its lease. An operation with the
lease is its transaction on the state it finds, at any clock reading. Everything else may return
anything or raise anything, within the conditions of a `CallCondition`.

The world records whether a clock reading of the worker found its lease expired, and the status for
which an operation of the lease took the job row out of `RUNNING`.
-/

set_option autoImplicit false

namespace WheelForge.Worker

open WheelForge.Transition
open WheelForge.Jobs

/-- The job row runs under the execution of the lease, and the lease has expired at `now`. -/
def expiredAt (lease : JobLease) (now : DateTime) (db : Database) : Bool :=
  match db.job? lease.id with
  | some j =>
      decide (j.status = .running) && decide (j.executionId = some lease.executionId) &&
        match j.leaseExpiresAt with
        | some expires => decide (expires ≤ now)
        | none => false
  | none => false

/-- The status for which the job row of the lease left `RUNNING` in a transaction. -/
def settledBy (lease : JobLease) (db db' : Database) : Option JobStatus :=
  if runsUnder lease db && !runsUnder lease db' then db'.jobStatus? lease.id else none

/-- The database system, as one worker sees it. -/
structure World where
  sys : SystemState
  /-- A clock reading of the worker found its lease expired. -/
  expired : Bool
  /-- The status to which an operation of the lease took its job. -/
  committed : Option JobStatus

/-- The job row is no longer `RUNNING` under the execution of the lease, or the lease had expired. -/
def Settled (lease : JobLease) (w : World) : Prop :=
  w.expired = true ∨ runsUnder lease w.sys.db = false

/-- An operation of the worker's own program. -/
def IsOwnOperation (lease : JobLease) : SystemAction → Prop
  | .operate _ _ .heartbeat => False
  | .operate l _ _ => l.executionId = lease.executionId
  | _ => False

/-- A step beside the program of the worker: another worker, the API, a renewal by the heartbeat
thread, or a clock reading. -/
inductive Beside (repo : JobRepository) (encode : Api.WireEncoder) (lease : JobLease) :
    World → World → Prop
  | step {w : World} {s' : SystemState} {a : SystemAction}
      (h : SystemStep repo encode w.sys a s') (hu : PipelineUse w.sys a)
      (hown : ¬ IsOwnOperation lease a) : Beside repo encode lease w { w with sys := s' }
  | reading {w : World} (now : DateTime) :
      Beside repo encode lease w
        { w with expired := w.expired || expiredAt lease now w.sys.db }

/-- Conditions on the calls: on the state in which an operation of the lease runs, and on the state
in which another call ends with its outcome. -/
structure CallCondition where
  operation : World → DateTime → LeaseOperation → Prop
  outcome : World → (o : WorkerOp) → Except PyError o.Answer → Prop

/-- No condition. -/
def CallCondition.any : CallCondition where
  operation _ _ _ := True
  outcome _ _ _ := True

/-- The calls that neither claim a job nor perform an operation with a lease. -/
def WorkerOp.isOutside : WorkerOp → Bool
  | .claimNext _ | .operate .. => false
  | _ => true

/-- The world after an operation of the lease. -/
def World.operated (repo : JobRepository) (lease : JobLease) (now : DateTime) (w : World)
    (op : LeaseOperation) : World where
  sys :=
    { w.sys with
      db := perform repo lease now op w.sys.db
      claimed := if claimsSubject repo lease now op w.sys.db then lease.executionId :: w.sys.claimed
        else w.sys.claimed }
  expired := w.expired || expiredAt lease now w.sys.db
  committed := w.committed <|> settledBy lease w.sys.db (perform repo lease now op w.sys.db)

/-- What the program receives from a transaction. -/
def answerOf {α : Type} : Except RepositoryError (α × Database) → Except PyError α
  | .ok (a, _) => .ok a
  | .error e => .error (.ofRepository e)

/-- How a call is answered. -/
inductive Answers (repo : JobRepository) (encode : Api.WireEncoder) (lease : JobLease)
    (C : CallCondition) : World → (o : WorkerOp) → Except PyError o.Answer → World → Prop
  | claimed {w w₁ : World} {workerId : String} {locked : Uuid → Bool} {now : DateTime}
      {s' : SystemState} (hb : Relation.ReflTransGen (Beside repo encode lease) w w₁)
      (hs : SystemStep repo encode w₁.sys (.claim workerId lease.executionId locked now) s')
      (hl : (repo.claimPass workerId lease.executionId locked now w₁.sys.db).1 = .leased lease) :
      Answers repo encode lease C w (.claimNext workerId) (.ok (some lease)) { w₁ with sys := s' }
  | idle {w w₁ : World} {workerId : String}
      (hb : Relation.ReflTransGen (Beside repo encode lease) w w₁) :
      Answers repo encode lease C w (.claimNext workerId) (.ok none) w₁
  | invalidWorker {w : World} {workerId : String} (hw : validWorkerId workerId = false) :
      Answers repo encode lease C w (.claimNext workerId)
        (.error (.single .value "worker_id must contain at most 100 characters")) w
  | operate {w w₁ : World} {now : DateTime} {op : LeaseOperation}
      (hb : Relation.ReflTransGen (Beside repo encode lease) w w₁) (hC : C.operation w₁ now op) :
      Answers repo encode lease C w (.operate lease op)
        (answerOf (transact repo lease now op w₁.sys.db)) (w₁.operated repo lease now op)
  | outside {w w₁ : World} {o : WorkerOp} {r : Except PyError o.Answer}
      (ho : o.isOutside = true) (hb : Relation.ReflTransGen (Beside repo encode lease) w w₁)
      (hC : C.outcome w₁ o r) : Answers repo encode lease C w o r w₁

end WheelForge.Worker
