import Mathlib.Logic.Basic

/-!
# Strings and transactions

What the API asks of a `String`: its UTF-16 code units and `trim`. And what a transactional method
leaves when the database takes part in the transaction and another resource does not: callbacks on
completion work on the other resource and are told the status of the transaction as its manager
knows it. A commit that took effect can be reported as unknown.
-/

set_option autoImplicit false

namespace WheelForge.Java

/-! ## Strings -/

/-- The UTF-16 code units of a character. -/
def codeUnits (c : Char) : List Nat :=
  if c.toNat < 0x10000 then [c.toNat]
  else [0xd800 + (c.toNat - 0x10000) / 0x400, 0xdc00 + (c.toNat - 0x10000) % 0x400]

/-- `String.chars()`. -/
def chars (text : String) : List Nat := text.toList.flatMap codeUnits

/-- `String.length()`. -/
def length (text : String) : Nat := (chars text).length

/-- `String.trim()`. -/
def trim (text : String) : String :=
  String.ofList (((text.toList.dropWhile (· ≤ ' ')).reverse.dropWhile (· ≤ ' ')).reverse)

/-! ## Transactions with synchronizations -/

universe u v w x

/-- The argument of `afterCompletion`. -/
inductive CompletionStatus where
  | committed
  | rolledBack
  | unknown
deriving DecidableEq

/-- How a commit ends: it returns, it is answered by a rollback, or it raises and the manager does
not know whether it took effect. -/
inductive CommitOutcome where
  | committed
  | rolledBack
  | unknown (tookEffect : Bool)
deriving DecidableEq

def CommitOutcome.status : CommitOutcome → CompletionStatus
  | .committed => .committed
  | .rolledBack => .rolledBack
  | .unknown _ => .unknown

def CommitOutcome.tookEffect : CommitOutcome → Bool
  | .committed => true
  | .rolledBack => false
  | .unknown tookEffect => tookEffect

theorem CommitOutcome.status_eq_committed {commit : CommitOutcome} :
    commit.status = .committed ↔ commit = .committed := by
  cases commit <;> simp [status]

/-- A database and a resource outside its transactions. -/
structure Resources (δ : Type u) (σ : Type v) where
  db : δ
  outside : σ

/-- What the body of a method gives: its result, the rows it wrote, the other resource and the
callbacks it registered. -/
structure MethodOutcome (ε : Type w) (α : Type x) (δ : Type u) (σ : Type v) where
  result : Except ε α
  db : δ
  outside : σ
  synchronizations : List (CompletionStatus → σ → σ)

section Transactional

variable {ε : Type w} {α : Type x} {δ : Type u} {σ : Type v}

/-- `invokeAfterCompletion`. -/
def afterCompletion (status : CompletionStatus) (synchronizations : List (CompletionStatus → σ → σ))
    (outside : σ) : σ :=
  synchronizations.foldl (fun s callback => callback status s) outside

/-- A method under `@Transactional`: `commitFailure` is what a commit that does not return raises,
and `rollbackRaises` tells whether the rollback after an exception raises. -/
def transactional (commit : CommitOutcome) (commitFailure : ε) (rollbackRaises : Bool) (db : δ)
    (body : MethodOutcome ε α δ σ) : Except ε α × Resources δ σ :=
  match body.result with
  | .error e =>
      (.error e, ⟨db, afterCompletion (if rollbackRaises then .unknown else .rolledBack)
        body.synchronizations body.outside⟩)
  | .ok a =>
      (if commit = .committed then .ok a else .error commitFailure,
        ⟨if commit.tookEffect then body.db else db,
          afterCompletion commit.status body.synchronizations body.outside⟩)

variable {commit : CommitOutcome} {commitFailure : ε} {rollbackRaises : Bool} {db : δ}
  {body : MethodOutcome ε α δ σ}

/-- A method that raises leaves the database as it was, and no callback is told of a commit. -/
theorem transactional_error {e : ε} (h : body.result = .error e) :
    ∃ status, status ≠ .committed ∧ transactional commit commitFailure rollbackRaises db body =
      (.error e, ⟨db, afterCompletion status body.synchronizations body.outside⟩) := by
  refine ⟨if rollbackRaises then .unknown else .rolledBack, ?_, ?_⟩
  · cases rollbackRaises <;> simp
  · rw [transactional, h]

theorem transactional_ok {a : α} (h : body.result = .ok a) :
    (transactional commit commitFailure rollbackRaises db body).2 =
      ⟨if commit.tookEffect then body.db else db,
        afterCompletion commit.status body.synchronizations body.outside⟩ := by
  rw [transactional, h]

end Transactional

end WheelForge.Java
