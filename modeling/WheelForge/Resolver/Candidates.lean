import Mathlib.Data.List.Sort
import WheelForge.Pep440.Packaging
import WheelForge.Resolver.Models

/-!
# Candidate versions

What a candidate provider answers, and the order in which the candidates of a pin are tried.
-/

set_option autoImplicit false

namespace WheelForge.Resolver

open WheelForge.Pep440 (Version)

/-! ## Provider data -/

/-- A field of an object that a provider built: a value of the declared type or something else. -/
inductive Field (α : Type) where
  | value (a : α)
  | other
deriving DecidableEq, Repr

structure CandidateMetadata where
  version : Field String
  yanked : Field Bool
  /-- `none` is `None`. -/
  requiresPython : Option (Field String)
  wheelFilenames : Field (List (Field String))
deriving DecidableEq, Repr

/-- An entry of the releases; `other` is not a `CandidateMetadata`. -/
inductive Release where
  | candidate (metadata : CandidateMetadata)
  | other
deriving DecidableEq, Repr

/-- What `next` of an iterator of releases gives; an exception is known by its type's name. -/
inductive NextRelease where
  | item (release : Release)
  | finished
  | raised (typeName : String)
deriving DecidableEq, Repr

/-- What `candidates` or `candidates_bounded` answers; the iterator may go on for ever. -/
inductive Releases where
  | raised (typeName : String)
  | notIterable
  | iterator (next : Nat → NextRelease)

/-! ## Order -/

/-- `_normalized_release`. -/
def normalizedRelease (version : Version) : Nat × Nat × Nat :=
  (version.release.getD 0 0, version.release.getD 1 0, version.release.getD 2 0)

/-- `_within_boundary`. -/
def withinBoundary (original candidate : Version) : Bool :=
  let originalRelease := normalizedRelease original
  let candidateRelease := normalizedRelease candidate
  if originalRelease.1 = 0 then
    candidateRelease.1 = originalRelease.1 && candidateRelease.2.1 = originalRelease.2.1
  else candidateRelease.1 = originalRelease.1

/-- `_same_minor`. -/
def sameMinor (original candidate : Version) : Bool :=
  (normalizedRelease candidate).1 = (normalizedRelease original).1 &&
    (normalizedRelease candidate).2.1 = (normalizedRelease original).2.1

/-- `sorted(versions)`. -/
def ascending (versions : List Version) : List Version :=
  versions.insertionSort fun v w => v.key ≤ w.key

/-- `sorted(versions, reverse=True)`. -/
def descending (versions : List Version) : List Version :=
  versions.insertionSort fun v w => w.key ≤ v.key

/-- `ordered_candidates`. -/
def orderedCandidates (original : Version) (available : List Version) : List Version :=
  let candidates := (Version.distinct available).filter fun candidate =>
    !decide (candidate.Same original) && (original.isPrerelease || !candidate.isPrerelease) &&
      withinBoundary original candidate
  let minor (version : Version) := (normalizedRelease version).2.1
  ascending (candidates.filter fun c => sameMinor original c && original.key < c.key) ++
    descending (candidates.filter fun c => sameMinor original c && c.key < original.key) ++
    ascending (candidates.filter fun c => minor original < minor c) ++
    descending (candidates.filter fun c => minor c < minor original)

end WheelForge.Resolver
