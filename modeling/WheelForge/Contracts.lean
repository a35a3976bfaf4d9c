/-!
# Wire and column vocabularies

The enumerations shared by the worker and the API, and the JSON values of the database columns.
Identifiers are UUID strings and are compared for equality only. A `DateTime` is a naive UTC time
in microseconds.
-/

set_option autoImplicit false

namespace WheelForge

/-- A UUID column value, `String(36)`. -/
abbrev Uuid := String

/-- A naive UTC `DATETIME(6)` value, in microseconds. -/
abbrev DateTime := Int

/-- `timedelta(seconds=s)`. -/
def seconds (s : Int) : Int := 1000000 * s

inductive JobType where
  | requirementParse
  | build
deriving DecidableEq, Repr

inductive JobStatus where
  | ready
  | running
  | completed
  | failed
  | cancelled
deriving DecidableEq, Repr

/-- The text of a status in its column. -/
def JobStatus.value : JobStatus → String
  | ready => "READY"
  | running => "RUNNING"
  | completed => "COMPLETED"
  | failed => "FAILED"
  | cancelled => "CANCELLED"

inductive BuildStatus where
  | created
  | parsing
  | queued
  | resolving
  | downloading
  | validating
  | packaging
  | success
  | partialSuccess
  | failed
  | cancelled
deriving DecidableEq, Repr

/-- The `parse_status` values of `requirement_files`. -/
inductive ParseStatus where
  | pending
  | parsing
  | parsed
  | failed
deriving DecidableEq, Repr

def ParseStatus.value : ParseStatus → String
  | pending => "PENDING"
  | parsing => "PARSING"
  | parsed => "PARSED"
  | failed => "FAILED"

namespace BuildStatus

/-- `("SUCCESS", "PARTIAL_SUCCESS", "FAILED", "CANCELLED")`. -/
def isTerminal : BuildStatus → Bool
  | success | partialSuccess | failed | cancelled => true
  | _ => false

/-- The terminal statuses under which an artifact exists. -/
def isPublished : BuildStatus → Bool
  | success | partialSuccess => true
  | _ => false

/-- The `nonterminal` set of `claim_build_subject`. -/
def isNonterminal : BuildStatus → Bool
  | queued | resolving | downloading | validating | packaging => true
  | _ => false

theorem isTerminal_of_isPublished {s : BuildStatus} (h : s.isPublished = true) :
    s.isTerminal = true := by
  cases s <;> first | rfl | cases h

theorem not_isTerminal_of_isNonterminal {s : BuildStatus} (h : s.isNonterminal = true) :
    s.isTerminal = false := by
  cases s <;> first | rfl | cases h

end BuildStatus

/-- A decoded JSON column. -/
inductive Json where
  | null
  | bool (b : Bool)
  | number (text : String)
  | string (s : String)
  | array (items : List Json)
  | object (fields : List (String × Json))
deriving Repr, BEq

namespace Json

/-- `isinstance(value, dict)`. -/
def isDict : Json → Bool
  | object _ => true
  | _ => false

/-- `isinstance(value, str)`. -/
def isStr : Json → Bool
  | string _ => true
  | _ => false

/-- `value.get(name)` of a `dict`; the last binding of a name counts. -/
def get? : Json → String → Option Json
  | object fields, name => (fields.reverse.find? fun f => f.1 = name).map Prod.snd
  | _, _ => none

/-- `value == text` for a string on the right. -/
def eqString : Option Json → String → Bool
  | some (string s), t => s = t
  | _, _ => false

mutual

/-- `a == b` of decoded values; the keys of an object are distinct and unordered. -/
def pyEq : Json → Json → Bool
  | null, null => true
  | bool a, bool b => a = b
  | number a, number b => a = b
  | string a, string b => a = b
  | array a, array b => itemsEq a b
  | object a, object b => decide (a.length = b.length) && fieldsEq a b
  | _, _ => false

def itemsEq : List Json → List Json → Bool
  | [], [] => true
  | a :: as, b :: bs => pyEq a b && itemsEq as bs
  | _, _ => false

/-- Every field of the first object has an equal field in the second. -/
def fieldsEq : List (String × Json) → List (String × Json) → Bool
  | [], _ => true
  | (name, value) :: fields, b =>
      (match (object b).get? name with
        | some value' => pyEq value value'
        | none => false) && fieldsEq fields b

end

end Json

end WheelForge
