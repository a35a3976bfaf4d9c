import WheelForge.Pep440.Releases

/-!
# Version clauses

The clauses `==`, `>=`, `<=` and `~=` of PEP 440 without wildcards, and when a version meets all of
a set of clauses. Two witnesses are enough: with an exact clause, one of the exact versions
(`exists_admits_iff_exact`); without one, the greatest lower bound of the clauses
(`exists_admits_iff_greatest`). The second rests on the leading components of a release, which grow
with the version, so that a version between two versions of one prefix has that prefix too.
-/

set_option autoImplicit false

namespace WheelForge.Pep440

/-- A clause: `==`, `>=`, `<=` or `~=` with a version. -/
inductive Bound where
  | exactly (spec : Version)
  | atLeast (spec : Version)
  | atMost (spec : Version)
  | compatible (spec : Version)
deriving DecidableEq, Repr

namespace Version

variable {v w : Version}

/-- `version.public`, read back. -/
def publicPart (v : Version) : Version := { v with localLabel := none }

theorem publicPart_of_public (h : v.localLabel = none) : v.publicPart = v := by
  cases v
  simp only at h
  rw [publicPart, h]

@[simp] theorem publicPart_publicPart (v : Version) : v.publicPart.publicPart = v.publicPart := rfl

@[simp] theorem leading_publicPart (v : Version) (n : Nat) : v.publicPart.leading n = v.leading n :=
  rfl

theorem Same.publicPart (h : v.Same w) : v.publicPart.Same w.publicPart := by
  have hepoch : v.epoch = w.epoch := congrArg (fun key : VersionKey => (ofLex key).1) h
  have hrelease : v.releaseKey = w.releaseKey :=
    congrArg (fun key : VersionKey => (ofLex (ofLex key).2).1) h
  have hpost : v.postKey = w.postKey :=
    congrArg (fun key : VersionKey => (ofLex (ofLex (ofLex (ofLex key).2).2).2).1) h
  show toLex (v.epoch, toLex (v.releaseKey, toLex (v.preKey, toLex (v.postKey,
      toLex (v.devKey, toLex (0, [])))))) =
    toLex (w.epoch, toLex (w.releaseKey, toLex (w.preKey, toLex (w.postKey,
      toLex (w.devKey, toLex (0, []))))))
  rw [hepoch, hrelease, h.preKey, hpost, h.devKey]

theorem publicPart_le (v : Version) : v.publicPart.key ≤ v.key := by
  have hlocal : v.publicPart.localKey ≤ v.localKey := by
    unfold localKey publicPart
    cases v.localLabel with
    | none => exact le_refl _
    | some segments => exact (Prod.Lex.toLex_lt_toLex.2 (.inl Nat.zero_lt_one)).le
  exact Prod.Lex.toLex_mono ⟨le_refl _, Prod.Lex.toLex_mono ⟨le_refl _, Prod.Lex.toLex_mono
    ⟨le_refl _, Prod.Lex.toLex_mono ⟨le_refl _, Prod.Lex.toLex_mono ⟨le_refl _, hlocal⟩⟩⟩⟩⟩

/-- The least version, `0.dev0`. -/
def least : Version where
  epoch := 0
  release := [0]
  pre := none
  post := none
  dev := some 0
  localLabel := none
  release_ne_nil := by simp

theorem nil_le_list {α : Type} [LinearOrder α] (l : List α) : [] ≤ l :=
  not_lt.1 (List.not_lt_nil l)

theorem least_le (v : Version) : least.key ≤ v.key := by
  have hpre : least.preKey ≤ v.preKey :=
    Prod.Lex.toLex_mono ⟨Nat.zero_le _, Prod.Lex.toLex_mono ⟨Nat.zero_le _, Nat.zero_le _⟩⟩
  have hdev : least.devKey ≤ v.devKey := Prod.Lex.toLex_mono ⟨Nat.zero_le _, Nat.zero_le _⟩
  have hlocal : least.localKey ≤ v.localKey := Prod.Lex.toLex_mono ⟨Nat.zero_le _, nil_le_list _⟩
  exact Prod.Lex.toLex_mono ⟨Nat.zero_le _, Prod.Lex.toLex_mono ⟨nil_le_list _,
    Prod.Lex.toLex_mono ⟨hpre, Prod.Lex.toLex_mono ⟨Nat.zero_le _,
      Prod.Lex.toLex_mono ⟨hdev, hlocal⟩⟩⟩⟩⟩

end Version

namespace Bound

open Version (publicPart)

variable {v w : Version} {bound : Bound} {bounds : List Bound}

/-- A version meets the clause, pre-releases included. An exact clause without a local label does not
look at the label of the version, and the other clauses never do; `~=` drops the last component of
the release as it is written. -/
def Admits : Bound → Version → Prop
  | .exactly spec, v => if spec.localLabel = none then v.publicPart.Same spec else v.Same spec
  | .atLeast spec, v => spec.key ≤ v.publicPart.key
  | .atMost spec, v => v.publicPart.key ≤ spec.key
  | .compatible spec, v =>
      spec.key ≤ v.publicPart.key ∧
        v.leading (spec.release.length - 1) = spec.leading (spec.release.length - 1)

instance (bound : Bound) (v : Version) : Decidable (bound.Admits v) := by
  unfold Admits
  cases bound <;> infer_instance

theorem admits_exactly_public {spec : Version} (h : spec.localLabel = none) :
    (exactly spec).Admits v ↔ v.publicPart.Same spec := by
  simp [Admits, h]

theorem admits_exactly_label {spec : Version} (h : spec.localLabel ≠ none) :
    (exactly spec).Admits v ↔ v.Same spec := by
  simp [Admits, h]

/-- A version that meets an exact clause is its version, up to a local label that the clause does not
have. -/
theorem same_or_label_of_exactly {spec : Version} (h : (exactly spec).Admits v) :
    v.Same spec ∨ v.localLabel ≠ none ∧ v.publicPart.Same spec := by
  by_cases hspec : spec.localLabel = none
  · rw [admits_exactly_public hspec] at h
    by_cases hlabel : v.localLabel = none
    · rw [Version.publicPart_of_public hlabel] at h
      exact .inl h
    · exact .inr ⟨hlabel, h⟩
  · exact .inl ((admits_exactly_label hspec).1 h)

/-- Only an exact clause may have a local label. -/
def WellFormed : Bound → Prop
  | .exactly _ => True
  | .atLeast spec | .atMost spec | .compatible spec => spec.localLabel = none

/-- The version of a lower bound. -/
def lower : Bound → Option Version
  | .atLeast spec | .compatible spec => some spec
  | .exactly _ | .atMost _ => none

/-- A clause looks at the key of a version only. -/
theorem Admits.congr (h : bound.Admits v) (hsame : v.Same w) : bound.Admits w := by
  have hpublic : v.publicPart.key = w.publicPart.key := hsame.publicPart
  cases bound with
  | exactly spec =>
      by_cases hspec : spec.localLabel = none
      · rw [admits_exactly_public hspec] at h ⊢
        exact hpublic.symm.trans h
      · rw [admits_exactly_label hspec] at h ⊢
        exact hsame.symm.trans h
  | atLeast spec => exact le_of_le_of_eq h hpublic
  | atMost spec => exact le_of_eq_of_le hpublic.symm h
  | compatible spec => exact ⟨le_of_le_of_eq h.1 hpublic, (hsame.leading _).symm.trans h.2⟩

/-- Except for an exact clause with a local label, a clause looks at the public part only. -/
theorem admits_of_public (hbound : ∀ spec, bound = .exactly spec → spec.localLabel = none)
    (h : bound.Admits v) (hsame : v.publicPart.Same w.publicPart) : bound.Admits w := by
  cases bound with
  | exactly spec =>
      rw [admits_exactly_public (hbound spec rfl)] at h ⊢
      exact hsame.symm.trans h
  | atLeast spec => exact le_of_le_of_eq h hsame
  | atMost spec => exact le_of_eq_of_le hsame.symm h
  | compatible spec => exact ⟨le_of_le_of_eq h.1 hsame, (hsame.leading _).symm.trans h.2⟩

/-- With an exact clause, a version meets all clauses only if an exact version does. -/
theorem exists_admits_iff_exact {spec : Version} (hexact : Bound.exactly spec ∈ bounds) :
    (∃ v, ∀ b ∈ bounds, b.Admits v) ↔
      ∃ e, Bound.exactly e ∈ bounds ∧ ∀ b ∈ bounds, b.Admits e := by
  constructor
  · rintro ⟨v, hv⟩
    by_cases hlocal : ∃ e, Bound.exactly e ∈ bounds ∧ e.localLabel ≠ none
    · -- the version is the one with the local label
      obtain ⟨e, he, hlabel⟩ := hlocal
      have hsame : v.Same e := (admits_exactly_label hlabel).1 (hv _ he)
      exact ⟨e, he, fun b hb => (hv b hb).congr hsame⟩
    · -- no clause looks at the local label of the version
      have hpublic : ∀ e, Bound.exactly e ∈ bounds → e.localLabel = none := by
        intro e he
        by_contra hlabel
        exact hlocal ⟨e, he, hlabel⟩
      have hspec := hpublic spec hexact
      have hsame : v.publicPart.Same spec.publicPart := by
        rw [Version.publicPart_of_public hspec]
        exact (admits_exactly_public hspec).1 (hv _ hexact)
      refine ⟨spec, hexact, fun b hb => ?_⟩
      refine admits_of_public ?_ (hv b hb) hsame
      rintro e rfl
      exact hpublic e hb
  · rintro ⟨e, -, he⟩
    exact ⟨e, he⟩

/-- Upper bounds alone are met by the least version. -/
theorem exists_admits_of_upper (h : ∀ b ∈ bounds, ∃ spec, b = .atMost spec) :
    ∃ v, ∀ b ∈ bounds, b.Admits v := by
  refine ⟨Version.least, fun b hb => ?_⟩
  obtain ⟨spec, rfl⟩ := h b hb
  exact Version.least_le spec

/-- Without an exact clause, a version meets all clauses only if the greatest lower bound does. -/
theorem exists_admits_iff_greatest {greatest : Version} (hwell : ∀ b ∈ bounds, b.WellFormed)
    (hexact : ∀ spec, Bound.exactly spec ∉ bounds)
    (hmem : ∃ b ∈ bounds, b.lower = some greatest)
    (hgreatest : ∀ b ∈ bounds, ∀ spec, b.lower = some spec → spec.key ≤ greatest.key) :
    (∃ v, ∀ b ∈ bounds, b.Admits v) ↔ ∀ b ∈ bounds, b.Admits greatest := by
  constructor
  · rintro ⟨v, hv⟩
    obtain ⟨b₀, hb₀, hlower⟩ := hmem
    have hpublic : greatest.publicPart = greatest := by
      have hwell₀ := hwell b₀ hb₀
      cases b₀ with
      | exactly spec => cases hlower
      | atMost spec => cases hlower
      | atLeast spec =>
          cases hlower
          exact Version.publicPart_of_public hwell₀
      | compatible spec =>
          cases hlower
          exact Version.publicPart_of_public hwell₀
    have hbelow : greatest.key ≤ v.publicPart.key := by
      have hadmits := hv b₀ hb₀
      cases b₀ with
      | exactly spec => cases hlower
      | atMost spec => cases hlower
      | atLeast spec =>
          cases hlower
          exact hadmits
      | compatible spec =>
          cases hlower
          exact hadmits.1
    intro b hb
    have hadmits := hv b hb
    cases b with
    | exactly spec => exact absurd hb (hexact spec)
    | atMost spec =>
        show greatest.publicPart.key ≤ spec.key
        rw [hpublic]
        exact hbelow.trans hadmits
    | atLeast spec =>
        show spec.key ≤ greatest.publicPart.key
        rw [hpublic]
        exact hgreatest _ hb spec rfl
    | compatible spec =>
        have habove := hgreatest _ hb spec rfl
        refine ⟨?_, ?_⟩
        · rw [hpublic]
          exact habove
        · -- the greatest lower bound lies between the version of the clause and the version
          obtain ⟨-, hleading⟩ := hadmits
          have hlow := Version.leading_mono (spec.release.length - 1) habove
          have hhigh := Version.leading_mono (spec.release.length - 1) hbelow
          rw [Version.leading_publicPart, hleading] at hhigh
          exact le_antisymm hhigh hlow
  · intro h
    exact ⟨greatest, h⟩

end Bound

end WheelForge.Pep440
