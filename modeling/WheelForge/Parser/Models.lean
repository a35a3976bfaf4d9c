/-!
# Parsed requirements

The dataclasses of the requirements parser and the failures it raises on untrusted input.
-/

set_option autoImplicit false

namespace WheelForge.Parser

structure RequirementItem where
  lineNo : Nat
  name : String
  extras : List String
  specifier : String
  marker : Option String
  originalText : String
deriving DecidableEq, Repr

structure ParsedRequirements where
  normalizedText : String
  items : List RequirementItem
  encoding : String
deriving DecidableEq, Repr

/-- `RequirementsParseError` and its subclasses. -/
inductive RequirementsParseError where
  | inputTooLarge (actual limit : Nat)
  | tooManyLines (actual limit : Nat)
  | decode
  | invalidRequirement (message : String) (lineNo : Nat) (originalText : String)
  | unsupportedSyntax (message : String) (lineNo : Nat) (originalText : String)
  | constraintConflict (name : String) (lineNo : Nat) (originalText : String)
  | duplicateConflict (name : String) (lineNo : Nat) (originalText : String)
      (existingLineNo : Nat)
deriving DecidableEq, Repr

/-- `str(error)`; a name is a normalized package name, so `repr` only adds the quotes. -/
def RequirementsParseError.text : RequirementsParseError → String
  | inputTooLarge actual limit =>
      s!"requirements file is {actual} bytes; limit is {limit}"
  | tooManyLines actual limit =>
      s!"requirements file has {actual} lines; limit is {limit}"
  | decode => "requirements file is neither valid UTF-8 nor valid GBK"
  | invalidRequirement message lineNo _ => s!"line {lineNo}: {message}"
  | unsupportedSyntax message lineNo _ => s!"line {lineNo}: {message}"
  | constraintConflict name lineNo _ =>
      s!"line {lineNo}: requirement '{name}' contains conflicting constraints"
  | duplicateConflict name lineNo _ existingLineNo =>
      s!"line {lineNo}: requirement '{name}' conflicts with line {existingLineNo}"

end WheelForge.Parser
