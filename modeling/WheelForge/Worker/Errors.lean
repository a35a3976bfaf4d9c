import WheelForge.Jobs.Schema

/-!
# Exceptions of the worker

A Python exception is a single exception of some class or a group of exceptions. `isinstance` tests
see the class of a single exception and never look into a group; `contains` is `contains_exception`.
-/

set_option autoImplicit false

namespace WheelForge.Worker

open WheelForge.Jobs (RepositoryError)

/-- The exception classes that the worker tells apart, each without the subclasses that are listed
themselves. -/
inductive ErrorClass where
  | lostLease
  | resolver
  | wheelArchiveValidation
  | downloadCancelled
  | runtime
  | subjectIntegrity
  | requirementsParse
  | value
  | fileExists
  | os
  | integrity
  | operational
  | sqlTimeout
  | dbapi (connectionInvalidated : Bool)
  | keyboardInterrupt
  | systemExit
  /-- Another subclass of `Exception`. -/
  | exception
  /-- Another subclass of `BaseException`. -/
  | baseException
deriving DecidableEq, Repr

/-- An exception; `single` carries its text. -/
inductive PyError where
  | single (kind : ErrorClass) (text : String)
  | group (message : String) (children : List PyError)
deriving Repr

namespace ErrorClass

/-- `isinstance(error, ValueError)`. -/
def isValueError : ErrorClass → Bool
  | subjectIntegrity | requirementsParse | value => true
  | _ => false

/-- `isinstance(error, OSError)`. -/
def isOsError : ErrorClass → Bool
  | fileExists | os => true
  | _ => false

/-- `isinstance(error, RuntimeError)`. -/
def isRuntimeError : ErrorClass → Bool
  | lostLease | resolver | wheelArchiveValidation | downloadCancelled | runtime => true
  | _ => false

/-- `isinstance(error, Exception)`. -/
def isException : ErrorClass → Bool
  | keyboardInterrupt | systemExit | baseException => false
  | _ => true

/-- `_retryable` of a single exception. -/
def retryable : ErrorClass → Bool
  | lostLease => false
  | integrity => false
  | operational | sqlTimeout => true
  | dbapi connectionInvalidated => connectionInvalidated
  | kind => kind.isOsError || kind.isRuntimeError

end ErrorClass

namespace PyError

/-- `isinstance(error, kind)` for a class without subclasses of its own here. -/
def isA (kind : ErrorClass) : PyError → Bool
  | single k _ => decide (k = kind)
  | group .. => false

/-- `isinstance(error, ValueError)`. -/
def isValueError : PyError → Bool
  | single k _ => k.isValueError
  | group .. => false

/-- `isinstance(error, (KeyboardInterrupt, SystemExit))`. -/
def isInterrupt (e : PyError) : Bool := e.isA .keyboardInterrupt || e.isA .systemExit

mutual

/-- `contains_exception(error, kind)`. -/
def contains (kind : ErrorClass) : PyError → Bool
  | single k _ => decide (k = kind)
  | group _ children => containsAny kind children

def containsAny (kind : ErrorClass) : List PyError → Bool
  | [] => false
  | child :: children => contains kind child || containsAny kind children

end

mutual

/-- `isinstance(error, Exception)`: a group is one when all its members are. -/
def isException : PyError → Bool
  | single k _ => k.isException
  | group _ children => allExceptions children

def allExceptions : List PyError → Bool
  | [] => true
  | child :: children => isException child && allExceptions children

end

mutual

/-- `_retryable`. -/
def retryable : PyError → Bool
  | single k _ => k.retryable
  | group _ children => !children.isEmpty && allRetryable children

def allRetryable : List PyError → Bool
  | [] => true
  | child :: children => retryable child && allRetryable children

end

/-- `_contains_lost_lease`. -/
def containsLostLease (e : PyError) : Bool := e.contains .lostLease

/-- The exception that a repository operation raises for its error. -/
def ofRepository : RepositoryError → PyError
  | .lostLease text => single .lostLease text
  | .value text => single .value text
  | .integrity => single .integrity "IntegrityError"

theorem containsAny_eq_any (kind : ErrorClass) (children : List PyError) :
    containsAny kind children = children.any (contains kind) := by
  induction children with
  | nil => rfl
  | cons child children ih =>
      rw [containsAny, List.any_cons, ih]

/-- A group contains a class exactly when one of its members does. -/
theorem contains_group {kind : ErrorClass} {message : String} {children : List PyError} :
    (group message children).contains kind = true ↔
      ∃ child ∈ children, child.contains kind = true := by
  rw [contains, containsAny_eq_any, List.any_eq_true]

end PyError

end WheelForge.Worker
