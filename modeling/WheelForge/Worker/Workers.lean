import WheelForge.Worker.World

/-!
# Workers as processes

`workersSystem` runs any number of worker processes and the API on one database. A process is a
program, started as `run_once`; a step performs its next call. A repository operation is one
transaction on the database as it is then, at any clock reading; every other call may answer
anything. A call may fail without an effect, and a transaction may commit although its answer is
lost. A process that is never continued has crashed, and it may be started again.

`Progress` is how far the execution of one process has come, `Follows` says that a program performs
its operations in that order.
-/

set_option autoImplicit false

namespace WheelForge.Worker

open WheelForge.Interaction
open WheelForge.Interaction.Program (Meets)
open WheelForge.Transition
open WheelForge.Jobs

/-- The database system and what each process still has to do. -/
structure WorkersState where
  sys : SystemState
  processes : Nat → Option (WorkerProgram Bool)

/-- The state in which process `i` goes on with `p`. -/
def WorkersState.resume (s : WorkersState) (sys : SystemState) (i : Nat)
    (p : WorkerProgram Bool) : WorkersState where
  sys := sys
  processes := Function.update s.processes i (some p)

inductive WorkersAction where
  /-- `run_once` is started, also in the place of a crashed or finished process. -/
  | start (i : Nat) (workerId : String)
  /-- A pass of `claim_next`. -/
  | claimNext (i : Nat) (executionId : Uuid) (locked : Uuid → Bool) (now : DateTime)
  /-- The next operation with a lease. -/
  | operate (i : Nat) (now : DateTime)
  /-- The next call outside the database, or a call that fails without an effect. -/
  | answer (i : Nat)
  /-- A renewal by a heartbeat thread. -/
  | heartbeat (lease : JobLease) (now : DateTime)
  | api (a : SystemAction)

def WorkersAction.ofWorker : WorkersAction → Bool
  | .api _ => false
  | _ => true

/-- The steps of the database system that the API takes. -/
def isApiAction : SystemAction → Bool
  | .claim .. | .operate .. => false
  | _ => true

/-- How `claim_next` goes on after a pass: it returns, or it makes another pass. -/
def afterPass (workerId : String) (k : Except PyError (Option JobLease) → WorkerProgram Bool) :
    ClaimPass → WorkerProgram Bool
  | .idle => k (.ok none)
  | .again => .call (.claimNext workerId) k
  | .leased lease => k (.ok (some lease))

section System

variable (repo : JobRepository) (encode : Api.WireEncoder) (pipeline : JobPipeline)

/-- One step of a process, of a heartbeat thread or of the API. -/
inductive WorkersStep : WorkersState → WorkersAction → WorkersState → Prop
  | start {s : WorkersState} (i : Nat) (workerId : String) :
      WorkersStep s (.start i workerId) (s.resume s.sys i (pipeline.runOnce workerId))
  | claimNext {s : WorkersState} {i : Nat} {workerId : String}
      {k : Except PyError (Option JobLease) → WorkerProgram Bool} {executionId : Uuid}
      {locked : Uuid → Bool} {now : DateTime} {sys' : SystemState} {p : WorkerProgram Bool}
      (hi : s.processes i = some (.call (.claimNext workerId) k))
      (hs : SystemStep repo encode s.sys (.claim workerId executionId locked now) sys')
      (hp : p = afterPass workerId k (repo.claimPass workerId executionId locked now s.sys.db).1 ∨
        ∃ e, p = k (.error e)) :
      WorkersStep s (.claimNext i executionId locked now) (s.resume sys' i p)
  | operate {s : WorkersState} {i : Nat} {lease : JobLease} {op : LeaseOperation}
      {k : Except PyError op.Answer → WorkerProgram Bool} {now : DateTime} {sys' : SystemState}
      {r : Except PyError op.Answer} (hi : s.processes i = some (.call (.operate lease op) k))
      (hs : SystemStep repo encode s.sys (.operate lease now op) sys')
      (hr : r = answerOf (transact repo lease now op s.sys.db) ∨ ∃ e, r = .error e) :
      WorkersStep s (.operate i now) (s.resume sys' i (k r))
  | outside {s : WorkersState} {i : Nat} {o : WorkerOp}
      {k : Except PyError o.Answer → WorkerProgram Bool} (r : Except PyError o.Answer)
      (hi : s.processes i = some (.call o k)) (ho : o.isOutside = true) :
      WorkersStep s (.answer i) (s.resume s.sys i (k r))
  | failed {s : WorkersState} {i : Nat} {o : WorkerOp}
      {k : Except PyError o.Answer → WorkerProgram Bool} (e : PyError)
      (hi : s.processes i = some (.call o k)) :
      WorkersStep s (.answer i) (s.resume s.sys i (k (.error e)))
  | heartbeat {s : WorkersState} {lease : JobLease} {now : DateTime} {sys' : SystemState}
      (hs : SystemStep repo encode s.sys (.operate lease now .heartbeat) sys') :
      WorkersStep s (.heartbeat lease now) { s with sys := sys' }
  | api {s : WorkersState} {a : SystemAction} {sys' : SystemState} (ha : isApiAction a = true)
      (hs : SystemStep repo encode s.sys a sys') : WorkersStep s (.api a) { s with sys := sys' }

/-- Workers and the API, from an empty database and without processes. -/
def workersSystem : System WorkersState WorkersAction where
  init s := s = ⟨⟨Database.empty, [], [], []⟩, fun _ => none⟩
  step := WorkersStep repo encode pipeline

end System

/-! ## The order of the operations -/

/-- How far an execution has come: no lease yet, a lease, a claimed task in a stage, or past its last
stage. -/
inductive Progress where
  | idle
  | leased (lease : JobLease)
  | inStage (lease : JobLease) (stage : BuildStatus)
  | left (lease : JobLease)

namespace Progress

def lease? : Progress → Option JobLease
  | idle => none
  | leased lease | inStage lease _ | left lease => some lease

/-- Whether an operation comes at its place. -/
def admits (g : Progress) : LeaseOperation → Prop
  | .claimBuildSubject => ∃ lease, g = leased lease
  | .advanceBuild status .. => ∃ lease stage, g = inStage lease stage ∧
      (stage = status ∨ Api.isAllowed stage status = true)
  | .publishArtifactTerminal _ _ _ status _ => ∃ lease stage, g = inStage lease stage ∧
      Api.isAllowed stage status = true
  | _ => True

/-- The calls that an execution may make. -/
def Allows (g : Progress) : WorkerOp → Prop
  | .claimNext _ => g = idle
  | .operate lease op => g.lease? = some lease ∧ usedByPipeline lease op = true ∧ g.admits op
  | _ => True

/-- The progress after a call. -/
def after (g : Progress) : (o : WorkerOp) → Except PyError o.Answer → Progress
  | .claimNext _, .ok (some lease) => leased lease
  | .operate lease .claimBuildSubject, .ok (some _) => inStage lease .resolving
  | .operate lease .claimBuildSubject, _ => left lease
  | .operate lease (.advanceBuild status ..), .ok _ => inStage lease status
  | .operate lease (.advanceBuild ..), .error _ => left lease
  | _, _ => g

/-- `after` as a relation. -/
def Advances (g : Progress) (o : WorkerOp) (r : Except PyError o.Answer) (g' : Progress) : Prop :=
  g' = g.after o r

end Progress

/-- The operations of `p` come in order, from `g` on. -/
abbrev Follows {α : Type} (g : Progress) (p : WorkerProgram α)
    (Q : Progress → Except PyError α → Prop) : Prop :=
  Meets Progress.Allows Progress.Advances p g Q

end WheelForge.Worker
