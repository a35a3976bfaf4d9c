import WheelForge.Pep440.Releases
import WheelForge.Resolver.Compatible

/-!
# The order and the boundary of the candidates

`ordered_candidates` gives one spelling of each admissible version, in four groups one after the
other (`orderedCandidates_ordered`). A candidate has the major number of the original, and its minor
number too if the major number is `0`; the check of the resolver is the same
(`candidates_within_boundary`). Neither looks at the epoch.
-/

set_option autoImplicit false

namespace WheelForge.Resolver

open WheelForge.Pep440 WheelForge.Target

variable {original v w : Version}

/-! ## Admissible versions -/

def major (version : Version) : Nat := version.release.getD 0 0

def minor (version : Version) : Nat := version.release.getD 1 0

/-- The compatibility boundary: the numbers are those of the release. -/
structure WithinBoundary (original candidate : Version) : Prop where
  major : major candidate = major original
  minor : Resolver.major original = 0 → minor candidate = minor original

/-- A version that may replace the original. -/
structure Admissible (original candidate : Version) : Prop where
  other : ¬ candidate.Same original
  prerelease : candidate.isPrerelease = true → original.isPrerelease = true
  boundary : WithinBoundary original candidate

theorem withinBoundary_iff : withinBoundary original v = true ↔ WithinBoundary original v := by
  unfold withinBoundary normalizedRelease
  dsimp only
  split
  · next hzero =>
      rw [Bool.and_eq_true, decide_eq_true_eq, decide_eq_true_eq]
      exact ⟨fun h => ⟨h.1, fun _ => h.2⟩, fun h => ⟨h.major, h.minor hzero⟩⟩
  · next hpositive =>
      rw [decide_eq_true_eq]
      exact ⟨fun h => ⟨h, fun hzero => absurd hzero hpositive⟩, fun h => h.major⟩

theorem padded_two (release : List Nat) :
    padded 2 release = [release.getD 0 0, release.getD 1 0] := by
  cases release with
  | nil => rfl
  | cons x release => cases release <;> rfl

theorem leading_two (v : Version) : v.leading 2 = toLex (v.epoch, [major v, minor v]) := by
  rw [Version.leading, padded_two]
  rfl

theorem major_congr (h : v.Same w) : major v = major w := by
  have hleading := h.leading 2
  rw [leading_two, leading_two] at hleading
  simpa using congrArg (fun x => (ofLex x).2.head?) hleading

theorem minor_congr (h : v.Same w) : minor v = minor w := by
  have hleading := h.leading 2
  rw [leading_two, leading_two] at hleading
  simpa using congrArg (fun x => (ofLex x).2.getLast?) hleading

theorem Admissible.congr (h : Admissible original v) (hsame : v.Same w) :
    Admissible original w where
  other := fun heq => h.other (hsame.trans heq)
  prerelease := by
    rw [← hsame.isPrerelease]
    exact h.prerelease
  boundary := by
    constructor
    · rw [← major_congr hsame]
      exact h.boundary.major
    · rw [← minor_congr hsame]
      exact h.boundary.minor

/-! ## The groups -/

/-- The group of a candidate, by the order in which the groups are tried: the higher and the lower
versions of the minor, the higher and the lower minors. -/
def tryGroup (original candidate : Version) : Nat :=
  if minor candidate = minor original then if original.key < candidate.key then 0 else 1
  else if minor original < minor candidate then 2 else 3

/-- One candidate is tried before another one: an earlier group; in the groups of higher versions
the lower version, in the groups of lower versions the higher one. -/
def Before (original v w : Version) : Prop :=
  tryGroup original v < tryGroup original w ∨
    tryGroup original v = tryGroup original w ∧
      if tryGroup original v % 2 = 0 then v.key < w.key else w.key < v.key

theorem Before.not_same (h : Before original v w) : ¬ v.Same w := by
  intro hsame
  have hkey : v.key = w.key := hsame
  rcases h with hgroup | ⟨-, hordered⟩
  · have heq : tryGroup original v = tryGroup original w := by
      unfold tryGroup
      rw [minor_congr hsame, hkey]
    omega
  · split at hordered
    · exact absurd hkey (ne_of_lt hordered)
    · exact absurd hkey.symm (ne_of_lt hordered)

/-- The admissible versions in the set of the available ones. -/
def admissibleVersions (original : Version) (available : List Version) : List Version :=
  (Version.distinct available).filter fun candidate =>
    !decide (candidate.Same original) && (original.isPrerelease || !candidate.isPrerelease) &&
      withinBoundary original candidate

theorem mem_admissibleVersions {available : List Version} :
    v ∈ admissibleVersions original available ↔
      v ∈ Version.distinct available ∧ Admissible original v := by
  unfold admissibleVersions
  rw [List.mem_filter, Bool.and_eq_true, Bool.and_eq_true, withinBoundary_iff]
  refine and_congr_right fun _ => ⟨fun h => ⟨by simpa using h.1.1, ?_, h.2⟩, fun h => ?_⟩
  · intro hpre
    simpa [hpre] using h.1.2
  · refine ⟨⟨by simpa using h.other, ?_⟩, h.boundary⟩
    cases hpre : v.isPrerelease with
    | false => simp
    | true => simp [h.prerelease hpre]

theorem admissibleVersions_distinct (original : Version) (available : List Version) :
    Version.Distinct (admissibleVersions original available) :=
  (Version.distinct_distinct available).filter _

/-- The admissible versions of one group. -/
def group (original : Version) (available : List Version) (n : Nat) : List Version :=
  (admissibleVersions original available).filter fun candidate => tryGroup original candidate = n

theorem mem_group {available : List Version} {n : Nat} :
    v ∈ group original available n ↔
      v ∈ admissibleVersions original available ∧ tryGroup original v = n := by
  rw [group, List.mem_filter, decide_eq_true_eq]

theorem sameMinor_iff (h : Admissible original v) :
    sameMinor original v = true ↔ minor v = minor original := by
  unfold sameMinor normalizedRelease
  rw [Bool.and_eq_true, decide_eq_true_eq, decide_eq_true_eq]
  exact ⟨fun hboth => hboth.2, fun hminor => ⟨h.boundary.major, hminor⟩⟩

/-- The four lists of the code are the four groups. -/
theorem orderedCandidates_eq (original : Version) (available : List Version) :
    orderedCandidates original available =
      ascending (group original available 0) ++ descending (group original available 1) ++
        ascending (group original available 2) ++ descending (group original available 3) := by
  have hgroup : ∀ (test : Version → Bool) (n : Nat),
      (∀ c, Admissible original c → (test c = true ↔ tryGroup original c = n)) →
      (admissibleVersions original available).filter test = group original available n := by
    intro test n htest
    apply List.filter_congr
    intro c hc
    rw [Bool.eq_iff_iff, htest c (mem_admissibleVersions.1 hc).2, decide_eq_true_eq]
  have hother : ∀ c, Admissible original c → ¬ c.key = original.key := fun c hc => hc.other
  have hhigher := hgroup (fun c => sameMinor original c && original.key < c.key) 0 (by
    intro c hc
    rw [Bool.and_eq_true, sameMinor_iff hc, decide_eq_true_eq]
    unfold tryGroup
    split <;> split <;> simp_all)
  have hlower := hgroup (fun c => sameMinor original c && c.key < original.key) 1 (by
    intro c hc
    rw [Bool.and_eq_true, sameMinor_iff hc, decide_eq_true_eq]
    have hne := hother c hc
    unfold tryGroup
    split
    · next hminor =>
        split
        · next hlt => simp [hminor, lt_asymm hlt]
        · next hle => simp [hminor, lt_of_le_of_ne (not_lt.1 hle) hne]
    · split <;> simp_all)
  have hhigherMinors := hgroup (fun c => minor original < minor c) 2 (by
    intro c hc
    rw [decide_eq_true_eq]
    unfold tryGroup
    split <;> split <;> simp_all)
  have hlowerMinors := hgroup (fun c => minor c < minor original) 3 (by
    intro c hc
    rw [decide_eq_true_eq]
    unfold tryGroup
    split <;> split <;> simp_all <;> omega)
  rw [← hhigher, ← hlower, ← hhigherMinors, ← hlowerMinors]
  rfl

/-! ## Sorted groups -/

theorem mem_ascending {versions : List Version} : v ∈ ascending versions ↔ v ∈ versions :=
  (List.perm_insertionSort _ _).mem_iff

theorem mem_descending {versions : List Version} : v ∈ descending versions ↔ v ∈ versions :=
  (List.perm_insertionSort _ _).mem_iff

theorem distinct_perm {versions others : List Version} (hperm : versions.Perm others)
    (h : Version.Distinct others) : Version.Distinct versions :=
  (hperm.pairwise_iff fun hne hsame => hne hsame.symm).2 h

theorem ascending_pairwise {versions : List Version} (h : Version.Distinct versions) :
    (ascending versions).Pairwise fun v w => v.key < w.key := by
  have hsorted : (ascending versions).Pairwise fun v w => v.key ≤ w.key :=
    List.pairwise_insertionSort _ versions
  have hdistinct : Version.Distinct (ascending versions) :=
    distinct_perm (List.perm_insertionSort _ _) h
  exact (hsorted.and hdistinct).imp fun hboth => lt_of_le_of_ne hboth.1 hboth.2

theorem descending_pairwise {versions : List Version} (h : Version.Distinct versions) :
    (descending versions).Pairwise fun v w => w.key < v.key := by
  have hsorted : (descending versions).Pairwise fun v w => w.key ≤ v.key :=
    List.pairwise_insertionSort _ versions
  have hdistinct : Version.Distinct (descending versions) :=
    distinct_perm (List.perm_insertionSort _ _) h
  exact (hsorted.and hdistinct).imp fun hboth => lt_of_le_of_ne hboth.1 fun heq => hboth.2 heq.symm

theorem group_distinct (original : Version) (available : List Version) (n : Nat) :
    Version.Distinct (group original available n) :=
  (admissibleVersions_distinct original available).filter _

/-- The groups hold the admissible versions. -/
theorem mem_orderedCandidates {available : List Version} :
    v ∈ orderedCandidates original available ↔
      v ∈ Version.distinct available ∧ Admissible original v := by
  have hrange : tryGroup original v = 0 ∨ tryGroup original v = 1 ∨ tryGroup original v = 2 ∨
      tryGroup original v = 3 := by
    unfold tryGroup
    split <;> split <;> simp
  rw [orderedCandidates_eq, ← mem_admissibleVersions]
  simp only [List.mem_append, mem_ascending, mem_descending, mem_group]
  constructor
  · rintro (((h | h) | h) | h) <;> exact h.1
  · intro h
    rcases hrange with hgroup | hgroup | hgroup | hgroup <;> simp [h, hgroup]

/-- A sorted group and the later ones. -/
theorem before_of_groups {n m : Nat} {available : List Version} (hlt : n < m)
    (hv : v ∈ group original available n) (hw : w ∈ group original available m) :
    Before original v w := by
  left
  rw [(mem_group.1 hv).2, (mem_group.1 hw).2]
  exact hlt

theorem orderedCandidates_pairwise (original : Version) (available : List Version) :
    (orderedCandidates original available).Pairwise (Before original) := by
  -- inside a group the keys decide
  have hup : ∀ n, n % 2 = 0 →
      (ascending (group original available n)).Pairwise (Before original) := by
    intro n heven
    refine (ascending_pairwise (group_distinct original available n)).imp_of_mem ?_
    intro v w hv hw hlt
    have hgroupv := (mem_group.1 (mem_ascending.1 hv)).2
    have hgroupw := (mem_group.1 (mem_ascending.1 hw)).2
    right
    rw [hgroupv, hgroupw, if_pos heven]
    exact ⟨rfl, hlt⟩
  have hdown : ∀ n, n % 2 = 1 →
      (descending (group original available n)).Pairwise (Before original) := by
    intro n hodd
    refine (descending_pairwise (group_distinct original available n)).imp_of_mem ?_
    intro v w hv hw hlt
    have hgroupv := (mem_group.1 (mem_descending.1 hv)).2
    have hgroupw := (mem_group.1 (mem_descending.1 hw)).2
    right
    rw [hgroupv, hgroupw, if_neg (by omega)]
    exact ⟨rfl, hlt⟩
  rw [orderedCandidates_eq]
  simp only [List.pairwise_append, List.mem_append, mem_ascending, mem_descending]
  refine ⟨⟨⟨hup 0 rfl, hdown 1 rfl, ?_⟩, hup 2 rfl, ?_⟩, hdown 3 rfl, ?_⟩
  · intro v hv w hw
    exact before_of_groups (by omega) hv hw
  · rintro v (hv | hv) w hw <;> exact before_of_groups (by omega) hv hw
  · rintro v ((hv | hv) | hv) w hw <;> exact before_of_groups (by omega) hv hw

/-! ## Results -/

/-- The candidates are admissible available versions, each admissible available version is among
them in one spelling, and they stand in the order in which they are to be tried. -/
theorem orderedCandidates_ordered (original : Version) (available : List Version) :
    (∀ v ∈ orderedCandidates original available, v ∈ available ∧ Admissible original v) ∧
      (∀ v ∈ available, Admissible original v →
        ∃ w ∈ orderedCandidates original available, w.Same v) ∧
      (orderedCandidates original available).Pairwise (Before original) ∧
      Version.Distinct (orderedCandidates original available) := by
  refine ⟨?_, ?_, orderedCandidates_pairwise original available, ?_⟩
  · intro v hv
    obtain ⟨hmem, hadmissible⟩ := mem_orderedCandidates.1 hv
    exact ⟨Version.mem_of_mem_distinct hmem, hadmissible⟩
  · intro v hv hadmissible
    obtain ⟨w, hw, hsame⟩ := Version.exists_same_mem_distinct hv
    exact ⟨w, mem_orderedCandidates.2 ⟨hw, hadmissible.congr hsame.symm⟩, hsame⟩
  · exact (orderedCandidates_pairwise original available).imp fun h => h.not_same

/-! ### The boundary -/

/-- The check of the resolver. -/
theorem resolver_withinBoundary (original candidate : Version) :
    CompatibleResolver.withinBoundary original candidate = withinBoundary original candidate :=
  rfl

section Boundary

variable {σ : Type} (resolver : CompatibleResolver σ)

/-- An observation that passes the checks is within the boundary. -/
theorem eligible_boundary {pin : RelaxablePin} {profile : TargetProfile}
    {observations : List Observation} {observation : Observation} {s : SearchState σ}
    (h : (resolver.eligible pin profile observations observation s).1 = .ok true) :
    WithinBoundary pin.original observation.version := by
  rw [← withinBoundary_iff, ← resolver_withinBoundary]
  by_contra houtside
  have houtside : CompatibleResolver.withinBoundary pin.original observation.version = false := by
    simpa using houtside
  unfold CompatibleResolver.eligible at h
  rw [houtside] at h
  split at h
  · cases h
  · split at h
    · cases h
    · cases h

end Boundary

/-- A final release. -/
def finalRelease (epoch first : Nat) (rest : List Nat) : Version where
  epoch := epoch
  release := first :: rest
  pre := none
  post := none
  dev := none
  localLabel := none
  release_ne_nil := List.cons_ne_nil _ _

/-- The epoch does not count: `1!1.3` is tried in place of `1.2`. -/
theorem otherEpoch_candidate :
    ¬ ∀ (original : Version) (available : List Version),
      ∀ v ∈ orderedCandidates original available, v.epoch = original.epoch := by
  intro h
  have hepoch := h (finalRelease 0 1 [2]) [finalRelease 1 1 [3]] (finalRelease 1 1 [3]) (by
    rw [mem_orderedCandidates]
    exact ⟨by decide, ⟨by decide, by decide, ⟨by decide, by decide⟩⟩⟩)
  exact absurd hepoch (by decide)

/-- Every candidate is within the boundary of the release, for the ordering code and for the
resolver; both accept the same versions. -/
theorem candidates_within_boundary (original : Version) :
    (∀ available, ∀ v ∈ orderedCandidates original available, WithinBoundary original v) ∧
      (∀ v, withinBoundary original v = true ↔ WithinBoundary original v) ∧
      (∀ v, CompatibleResolver.withinBoundary original v = true ↔ WithinBoundary original v) ∧
      ∀ {σ : Type} (resolver : CompatibleResolver σ) (itemIndex : Nat) (package : String)
        (profile : TargetProfile) (observations : List Observation) (observation : Observation)
        (s : SearchState σ),
        (resolver.eligible ⟨itemIndex, package, original⟩ profile observations observation s).1 =
          .ok true →
        WithinBoundary original observation.version := by
  refine ⟨?_, fun v => withinBoundary_iff, fun v => ?_, ?_⟩
  · intro available v hv
    exact (mem_orderedCandidates.1 hv).2.boundary
  · rw [resolver_withinBoundary, withinBoundary_iff]
  · intro σ resolver itemIndex package profile observations observation s h
    exact eligible_boundary resolver h

end WheelForge.Resolver
