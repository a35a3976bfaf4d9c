/-!
# PEP 440 versions

The data of `packaging.version.Version` and its `str`.
-/

set_option autoImplicit false

namespace WheelForge.Pep440

inductive PreTag where
  | a
  | b
  | rc
deriving DecidableEq, Repr

def PreTag.str : PreTag → String
  | .a => "a"
  | .b => "b"
  | .rc => "rc"

/-- A segment of the local version label: a number or a lower-case alphanumeric string. -/
inductive LocalSegment where
  | number (n : Nat)
  | text (s : String)
deriving DecidableEq, Repr

def LocalSegment.str : LocalSegment → String
  | .number n => toString n
  | .text s => s

/-- A parsed version; the release segment is never empty. -/
structure Version where
  epoch : Nat
  release : List Nat
  pre : Option (PreTag × Nat)
  post : Option Nat
  dev : Option Nat
  localLabel : Option (List LocalSegment)
  release_ne_nil : release ≠ []
deriving DecidableEq, Repr

namespace Version

/-- The final release `major.0`. -/
def ofMajor (major : Nat) : Version :=
  ⟨0, [major, 0], none, none, none, none, List.cons_ne_nil _ _⟩

/-- `str(version)`, the normalized spelling. -/
def str (v : Version) : String :=
  (if v.epoch = 0 then "" else toString v.epoch ++ "!") ++
  ".".intercalate (v.release.map toString) ++
  (match v.pre with | none => "" | some (t, n) => t.str ++ toString n) ++
  (match v.post with | none => "" | some n => ".post" ++ toString n) ++
  (match v.dev with | none => "" | some n => ".dev" ++ toString n) ++
  (match v.localLabel with
    | none => ""
    | some segments => "+" ++ ".".intercalate (segments.map LocalSegment.str))

/-- `version.is_prerelease`. -/
def isPrerelease (v : Version) : Bool := v.dev.isSome || v.pre.isSome

end Version

end WheelForge.Pep440
