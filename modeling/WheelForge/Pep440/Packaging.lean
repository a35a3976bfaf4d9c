import WheelForge.Pep440.Order

/-!
# The packaging library

The functions of `packaging` that the parser and the resolver call, as a parameter: versions,
specifiers and requirements read from text. What is assumed of them is stated where it is used.
-/

set_option autoImplicit false

namespace WheelForge.Pep440

/-- The comparison of a version specifier. -/
inductive Operator where
  | equal
  | compatible
  | greaterEqual
  | lessEqual
  | notEqual
  | greater
  | less
  | arbitrary
deriving DecidableEq, Repr

/-- `specifier.operator`. -/
def Operator.str : Operator → String
  | .equal => "=="
  | .compatible => "~="
  | .greaterEqual => ">="
  | .lessEqual => "<="
  | .notEqual => "!="
  | .greater => ">"
  | .less => "<"
  | .arbitrary => "==="

/-- A `Specifier`: an operator and the version as it is spelled. -/
structure Specifier where
  operator : Operator
  version : String
deriving DecidableEq, Repr

/-- `str(specifier)`. -/
def Specifier.str (specifier : Specifier) : String := specifier.operator.str ++ specifier.version

/-- A `Requirement`; `marker` is the text that `str` gives of its marker, and the sets `extras` and
`specifier` are in the order of their iteration. -/
structure Requirement where
  name : String
  extras : List String
  specifier : List Specifier
  marker : Option String
  url : Option String
deriving DecidableEq, Repr

/-- What a requirement or marker text raises: a text outside the grammar, or a quoted value that is
no Python string literal. -/
inductive PackagingError where
  | invalidRequirement
  | syntaxError
deriving DecidableEq, Repr

/-- The functions of the library. -/
structure Packaging where
  /-- `Version(text)`; `none` is `InvalidVersion`. -/
  version : String → Option Version
  /-- `Requirement(text)`. -/
  requirement : String → Except PackagingError Requirement
  /-- `str(Marker(text))`. -/
  marker : String → Except PackagingError String
  /-- `Specifier(text)`; `none` is `InvalidSpecifier`. -/
  specifier : String → Option Specifier
  /-- `SpecifierSet(text)` in the order of its iteration; `none` is `InvalidSpecifier`. -/
  specifierSet : String → Option (List Specifier)
  /-- `SpecifierSet(str(specifier)).contains(version, prereleases=True)`. -/
  contains : Specifier → Version → Bool
  /-- `canonicalize_name(name)`. -/
  canonicalizeName : String → String

end WheelForge.Pep440
