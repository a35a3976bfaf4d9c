import Mathlib.Data.List.DropRight
import WheelForge.Pep440.Order

/-!
# Releases and sets of versions

The leading components of a release, padded with zeros, are the same for equal versions and grow
with the version (`leading_mono`). A set of versions holds one spelling of each version
(`distinct_distinct`, `exists_same_mem_distinct`).
-/

set_option autoImplicit false

namespace WheelForge.Pep440

/-- The first components of a release; a missing component is `0`. -/
def padded : Nat → List Nat → List Nat
  | 0, _ => []
  | n + 1, [] => 0 :: padded n []
  | n + 1, component :: release => component :: padded n release

@[simp] theorem padded_zero (release : List Nat) : padded 0 release = [] := by
  cases release <;> rfl

@[simp] theorem padded_nil (n : Nat) : padded (n + 1) [] = 0 :: padded n [] := rfl

@[simp] theorem padded_cons (n component : Nat) (release : List Nat) :
    padded (n + 1) (component :: release) = component :: padded n release := rfl

/-- Zeros at the end do not change the padded release. -/
theorem padded_append_zeros (n : Nat) (release zeros : List Nat) (h : ∀ x ∈ zeros, x = 0) :
    padded n (release ++ zeros) = padded n release := by
  induction n generalizing release zeros with
  | zero => simp
  | succ n ih =>
      cases release with
      | cons component release => simp [ih release zeros h]
      | nil =>
          cases zeros with
          | nil => rfl
          | cons x zeros =>
              have hx : x = 0 := h x (by simp)
              have hrest := ih [] zeros fun y hy => h y (by simp [hy])
              simpa [hx] using hrest

/-- Padded releases are in order only if the releases are. -/
theorem lt_of_padded_lt {n : Nat} {release other : List Nat}
    (h : padded n release < padded n other) : release < other := by
  induction n generalizing release other with
  | zero => simp at h
  | succ n ih =>
      cases other with
      | nil =>
          cases release with
          | nil => exact absurd h (lt_irrefl _)
          | cons x release =>
              rw [padded_nil, padded_cons, List.cons_lt_cons_iff] at h
              rcases h with hlt | ⟨-, hlt⟩
              · omega
              · exact absurd (ih hlt) (List.not_lt_nil _)
      | cons y other =>
          cases release with
          | nil => exact List.nil_lt_cons _ _
          | cons x release =>
              rw [padded_cons, padded_cons, List.cons_lt_cons_iff] at h
              rw [List.cons_lt_cons_iff]
              rcases h with hlt | ⟨heq, hlt⟩
              · exact .inl hlt
              · exact .inr ⟨heq, ih hlt⟩

/-- The padded releases are ordered as the releases are. -/
theorem padded_mono (n : Nat) {release other : List Nat} (h : release ≤ other) :
    padded n release ≤ padded n other := by
  by_contra hlt
  exact absurd (lt_of_padded_lt (not_le.1 hlt)) (not_lt.2 h)

namespace Version

variable {v w : Version}

/-- The epoch and the first components of the release. -/
def leading (v : Version) (n : Nat) : Nat ×ₗ List Nat := toLex (v.epoch, padded n v.release)

theorem padded_releaseKey (v : Version) (n : Nat) :
    padded n v.releaseKey = padded n v.release := by
  have hsplit : v.release.rdropWhile (· = 0) ++ v.release.rtakeWhile (· = 0) = v.release :=
    List.rdropWhile_append_rtakeWhile
  have hzeros : ∀ x ∈ v.release.rtakeWhile (· = 0), x = 0 := by
    intro x hx
    simpa using List.mem_rtakeWhile_imp hx
  calc padded n v.releaseKey = padded n (v.release.rdropWhile (· = 0)) := rfl
    _ = padded n (v.release.rdropWhile (· = 0) ++ v.release.rtakeWhile (· = 0)) :=
      (padded_append_zeros n _ _ hzeros).symm
    _ = padded n v.release := by rw [hsplit]

/-- The leading components grow with the version. -/
theorem leading_mono (n : Nat) (h : v.key ≤ w.key) : v.leading n ≤ w.leading n := by
  unfold leading
  rw [Prod.Lex.toLex_le_toLex]
  rcases Prod.Lex.toLex_le_toLex.1 h with hepoch | ⟨hepoch, hrest⟩
  · exact .inl hepoch
  · have hrelease : v.releaseKey ≤ w.releaseKey := by
      rcases Prod.Lex.toLex_le_toLex.1 hrest with hlt | ⟨heq, -⟩
      · exact le_of_lt hlt
      · exact le_of_eq heq
    have hpadded := padded_mono n hrelease
    rw [padded_releaseKey, padded_releaseKey] at hpadded
    exact .inr ⟨hepoch, hpadded⟩

theorem Same.leading (h : v.Same w) (n : Nat) : v.leading n = w.leading n :=
  le_antisymm (leading_mono n (le_of_eq h)) (leading_mono n (le_of_eq h.symm))

/-! ## Pre-releases -/

theorem Same.preKey (h : v.Same w) : v.preKey = w.preKey :=
  congrArg (fun key : VersionKey => (ofLex (ofLex (ofLex key).2).2).1) h

theorem Same.devKey (h : v.Same w) : v.devKey = w.devKey :=
  congrArg (fun key : VersionKey => (ofLex (ofLex (ofLex (ofLex (ofLex key).2).2).2).2).1) h

theorem isPrerelease_iff (v : Version) :
    v.isPrerelease = true ↔ (ofLex v.devKey).1 = 0 ∨ (ofLex v.preKey).1 = 1 := by
  have hdev : v.dev.isSome = true ↔ (ofLex v.devKey).1 = 0 := by
    unfold Version.devKey
    cases v.dev <;> simp
  have hpre : v.pre.isSome = true ↔ (ofLex v.preKey).1 = 1 := by
    unfold Version.preKey
    cases hp : v.pre with
    | some tag => simp
    | none =>
        dsimp only
        split <;> simp
  rw [isPrerelease, Bool.or_eq_true, hdev, hpre]

theorem Same.isPrerelease (h : v.Same w) : v.isPrerelease = w.isPrerelease := by
  rw [Bool.eq_iff_iff, isPrerelease_iff, isPrerelease_iff, h.devKey, h.preKey]

/-! ## Sets of versions -/

theorem insertNew_subset (seen : List Version) (v : Version) :
    insertNew seen v ⊆ v :: seen := by
  intro w hw
  unfold insertNew at hw
  split at hw
  · exact List.mem_cons_of_mem _ hw
  · rw [List.mem_append, List.mem_singleton] at hw
    rw [List.mem_cons]
    exact hw.symm

theorem subset_insertNew (seen : List Version) (v : Version) : seen ⊆ insertNew seen v := by
  intro w hw
  unfold insertNew
  split
  · exact hw
  · exact List.mem_append_left _ hw

theorem exists_same_mem_insertNew (seen : List Version) (v : Version) :
    ∃ w ∈ insertNew seen v, w.Same v := by
  unfold insertNew
  split
  · assumption
  · exact ⟨v, by simp, Same.refl v⟩

theorem Distinct.insertNew {seen : List Version} (h : Distinct seen) (v : Version) :
    Distinct (insertNew seen v) := by
  unfold Version.insertNew
  split
  · exact h
  · next hnew =>
      refine List.pairwise_append.2 ⟨h, List.pairwise_singleton _ _, ?_⟩
      intro w hw u hu hsame
      rw [List.mem_singleton.1 hu] at hsame
      exact hnew ⟨w, hw, hsame⟩

/-- What the insertions one after the other make of a set. -/
theorem foldl_insertNew (versions : List Version) {seen : List Version} (h : Distinct seen) :
    Distinct (versions.foldl insertNew seen) ∧ versions.foldl insertNew seen ⊆ seen ++ versions ∧
      seen ⊆ versions.foldl insertNew seen ∧
      ∀ v ∈ versions, ∃ w ∈ versions.foldl insertNew seen, w.Same v := by
  induction versions generalizing seen with
  | nil => exact ⟨h, by simp, fun _ => id, by simp⟩
  | cons v versions ih =>
      obtain ⟨hdistinct, hsubset, hkept, hsame⟩ := ih (h.insertNew v)
      refine ⟨hdistinct, ?_, fun w hw => hkept (subset_insertNew seen v hw), ?_⟩
      · intro w hw
        rcases List.mem_append.1 (hsubset hw) with hw | hw
        · have := insertNew_subset seen v hw
          simp only [List.mem_cons, List.mem_append] at this ⊢
          tauto
        · simp [hw]
      · intro u hu
        rcases List.mem_cons.1 hu with rfl | hu
        · obtain ⟨w, hw, hwu⟩ := exists_same_mem_insertNew seen u
          exact ⟨w, hkept hw, hwu⟩
        · exact hsame u hu

theorem distinct_distinct (versions : List Version) : Distinct (distinct versions) :=
  (foldl_insertNew versions List.Pairwise.nil).1

theorem mem_of_mem_distinct {versions : List Version} (h : v ∈ distinct versions) :
    v ∈ versions := by
  simpa using (foldl_insertNew versions List.Pairwise.nil).2.1 h

theorem exists_same_mem_distinct {versions : List Version} (h : v ∈ versions) :
    ∃ w ∈ distinct versions, w.Same v :=
  (foldl_insertNew versions List.Pairwise.nil).2.2.2 v h

end Version

end WheelForge.Pep440
