import Mathlib.Data.Prod.Lex
import Mathlib.Data.List.Lex
import Mathlib.Data.String.Basic
import Mathlib.Data.List.Dedup
import WheelForge.Pep440.Version

/-!
# The order of PEP 440 versions

Versions compare by a key in which trailing zeros of the release do not count, so `1.0` and `1.0.0`
are equal though they are spelled differently. A set of versions keeps the first spelling of each
key (`distinct`).
-/

set_option autoImplicit false

namespace WheelForge.Pep440

/-- Epoch, release, pre-release, post-release, development release and local label. The first
component of the last four places an absent or infinite value. -/
abbrev VersionKey :=
  Nat ×ₗ List Nat ×ₗ (Nat ×ₗ Nat ×ₗ Nat) ×ₗ Nat ×ₗ (Nat ×ₗ Nat) ×ₗ Nat ×ₗ List (Nat ×ₗ Nat ×ₗ String)

def PreTag.rank : PreTag → Nat
  | .a => 0
  | .b => 1
  | .rc => 2

/-- A number is greater than every text. -/
def LocalSegment.key : LocalSegment → Nat ×ₗ Nat ×ₗ String
  | .number n => toLex (1, toLex (n, ""))
  | .text s => toLex (0, toLex (0, s))

namespace Version

/-- The release without its trailing zeros. -/
def releaseKey (v : Version) : List Nat := (v.release.reverse.dropWhile (· = 0)).reverse

/-- A development release of a version without further segments comes before its pre-releases; a
version without a pre-release segment otherwise comes after them. -/
def preKey (v : Version) : Nat ×ₗ Nat ×ₗ Nat :=
  match v.pre with
  | some (tag, n) => toLex (1, toLex (tag.rank, n))
  | none =>
      if v.post = none ∧ v.dev ≠ none then toLex (0, toLex (0, 0)) else toLex (2, toLex (0, 0))

def postKey (v : Version) : Nat :=
  match v.post with
  | some n => n + 1
  | none => 0

def devKey (v : Version) : Nat ×ₗ Nat :=
  match v.dev with
  | some n => toLex (0, n)
  | none => toLex (1, 0)

def localKey (v : Version) : Nat ×ₗ List (Nat ×ₗ Nat ×ₗ String) :=
  match v.localLabel with
  | some segments => toLex (1, segments.map LocalSegment.key)
  | none => toLex (0, [])

/-- The key by which versions are compared and hashed. -/
def key (v : Version) : VersionKey :=
  toLex (v.epoch, toLex (v.releaseKey, toLex (v.preKey, toLex (v.postKey,
    toLex (v.devKey, v.localKey)))))

/-- `v == w`. -/
def Same (v w : Version) : Prop := v.key = w.key

instance (v w : Version) : Decidable (v.Same w) := inferInstanceAs (Decidable (v.key = w.key))

@[refl] theorem Same.refl (v : Version) : v.Same v := rfl

@[symm] theorem Same.symm {v w : Version} (h : v.Same w) : w.Same v := Eq.symm h

theorem Same.trans {u v w : Version} (huv : u.Same v) (hvw : v.Same w) : u.Same w :=
  Eq.trans huv hvw

theorem same_congr_left {u v w : Version} (h : u.Same v) : u.Same w ↔ v.Same w :=
  ⟨h.symm.trans, h.trans⟩

/-- Insertion into a set, which keeps the version that is already there. -/
def insertNew (seen : List Version) (v : Version) : List Version :=
  if ∃ w ∈ seen, w.Same v then seen else seen ++ [v]

/-- The elements of a set of versions, in the order of their insertion. -/
def distinct (versions : List Version) : List Version := versions.foldl insertNew []

/-- No two of the versions are equal. -/
def Distinct (versions : List Version) : Prop := versions.Pairwise fun v w => ¬v.Same w

end Version

end WheelForge.Pep440
