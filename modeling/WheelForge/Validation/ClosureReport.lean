import WheelForge.Validation.Closure
import Mathlib.Data.List.Perm.Basic

/-!
# The report of a closure

The issues that `validateClosure` sorts, as a function of the packages and the wheels whose order does not
matter: what a wheel is reported for depends on the wheel only, and what an expected package is reported
for depends on the number of wheels with its identity (`observeWheels_grouped`). Permuted packages and
wheels therefore have one report (`validateClosure_perm`).
-/

set_option autoImplicit false

namespace WheelForge.Validation

open WheelForge.Build
open WheelForge.Pep440 (Version)
open WheelForge.Python
open WheelForge.Resolver (ResolvedPackage ResolutionResult)
open WheelForge.Target (TargetProfile)

variable {pk : MarkerPackaging} {profile : TargetProfile}

/-! ## Identities -/

theorem WheelIdentity.same_iff {a b : WheelIdentity} :
    a.same b = true ↔ a.1 = b.1 ∧ a.2.Same b.2 := by
  rw [WheelIdentity.same, Bool.and_eq_true, decide_eq_true_iff, decide_eq_true_iff]

@[simp] theorem WheelIdentity.same_refl (a : WheelIdentity) : a.same a = true :=
  same_iff.2 ⟨rfl, .refl _⟩

theorem WheelIdentity.same_symm {a b : WheelIdentity} (h : a.same b = true) : b.same a = true := by
  obtain ⟨hname, hversion⟩ := same_iff.1 h
  exact same_iff.2 ⟨hname.symm, hversion.symm⟩

/-- Identities that are the same have the same relation to any other. -/
theorem WheelIdentity.same_congr {a b : WheelIdentity} (h : a.same b = true) (c : WheelIdentity) :
    a.same c = b.same c := by
  obtain ⟨hname, hversion⟩ := same_iff.1 h
  rw [Bool.eq_iff_iff, same_iff, same_iff, hname, Version.same_congr_left hversion]

theorem WheelIdentity.same_comm (a b : WheelIdentity) : a.same b = b.same a :=
  Bool.eq_iff_iff.2 ⟨same_symm, same_symm⟩

/-- The identity in the file name of a wheel. -/
def wheelIdentity (pk : MarkerPackaging) (observed : DownloadedWheel) : Option WheelIdentity :=
  (pk.parseWheelFilename observed.filename).map fun parsed =>
    (pk.canonicalizeName parsed.1, parsed.2.1)

/-- Whether the file name of a wheel parses to an identity. -/
def parsesTo (pk : MarkerPackaging) (key : WheelIdentity) (observed : DownloadedWheel) : Bool :=
  (wheelIdentity pk observed).any fun actual => actual.same key

theorem parsesTo_iff {key : WheelIdentity} {observed : DownloadedWheel} :
    parsesTo pk key observed = true ↔
      ∃ actual, wheelIdentity pk observed = some actual ∧ actual.same key = true := by
  rw [parsesTo, Option.any_eq_true]

/-- What a wheel is reported for. -/
def wheelIssues (pk : MarkerPackaging) (profile : TargetProfile) (observed : DownloadedWheel) :
    List ValidationIssue :=
  (observeWheel pk profile observed).2

variable (profile) in
theorem observeWheel_fst (observed : DownloadedWheel) :
    (observeWheel pk profile observed).1 = wheelIdentity pk observed := by
  rw [observeWheel, wheelIdentity]
  cases pk.parseWheelFilename observed.filename with
  | none => rfl
  | some parsed => rfl

/-! ## Groups of wheels -/

/-- The groups of the wheels that were observed: one for each identity, with the wheels that have it. -/
structure Grouped (pk : MarkerPackaging) (done : List DownloadedWheel)
    (groups : List (WheelIdentity × List DownloadedWheel)) : Prop where
  distinct : groups.Pairwise fun group other => group.1.same other.1 = false
  wheels_eq : ∀ group ∈ groups, group.2 = done.filter (parsesTo pk group.1)
  covered : ∀ observed ∈ done, ∀ actual, wheelIdentity pk observed = some actual →
    ∃ group ∈ groups, group.1.same actual = true
  identified : ∀ group ∈ groups, ∃ observed ∈ done, parsesTo pk group.1 observed = true

variable {done : List DownloadedWheel} {groups : List (WheelIdentity × List DownloadedWheel)}
  {actual : WheelIdentity} {observed : DownloadedWheel}

theorem grouped_unparsed (h : Grouped pk done groups) (hnone : wheelIdentity pk observed = none) :
    Grouped pk (done ++ [observed]) groups := by
  have hnot : ∀ key, parsesTo pk key observed = false := fun key => by simp [parsesTo, hnone]
  refine ⟨h.distinct, fun group hgroup => ?_, fun other hother actual hactual => ?_,
    fun group hgroup => ?_⟩
  · rw [h.wheels_eq group hgroup, List.filter_append]
    simp [hnot]
  · rcases List.mem_append.1 hother with hother | hother
    · exact h.covered other hother actual hactual
    · rw [List.mem_singleton.1 hother, hnone] at hactual
      cases hactual
  · obtain ⟨other, hother, hparses⟩ := h.identified group hgroup
    exact ⟨other, List.mem_append_left _ hother, hparses⟩

theorem parsesTo_of_identity (hactual : wheelIdentity pk observed = some actual)
    (key : WheelIdentity) : parsesTo pk key observed = actual.same key := by
  simp [parsesTo, hactual]

theorem grouped_groupWheel (h : Grouped pk done groups)
    (hactual : wheelIdentity pk observed = some actual) :
    Grouped pk (done ++ [observed]) (groupWheel groups actual observed) := by
  rw [groupWheel]
  split
  case isTrue hany =>
    -- the wheel joins the group with its identity
    have hkey : ∀ group : WheelIdentity × List DownloadedWheel,
        (if group.1.same actual = true then (group.1, group.2 ++ [observed]) else group).1 =
          group.1 := by
      intro group
      split <;> rfl
    refine ⟨?_, fun group hgroup => ?_, fun other hother key hkey' => ?_, fun group hgroup => ?_⟩
    · rw [List.pairwise_map]
      refine h.distinct.imp fun hne => ?_
      rw [hkey, hkey]
      exact hne
    · obtain ⟨old, hold, rfl⟩ := List.mem_map.1 hgroup
      rw [hkey, List.filter_append, ← h.wheels_eq old hold, List.filter_singleton,
        parsesTo_of_identity hactual, actual.same_comm]
      cases hsame : old.1.same actual <;> simp
    · have hold : ∃ group ∈ groups, group.1.same key = true := by
        rcases List.mem_append.1 hother with hother | hother
        · exact h.covered other hother key hkey'
        · rw [List.mem_singleton.1 hother, hactual] at hkey'
          cases hkey'
          exact List.any_eq_true.1 hany
      obtain ⟨group, hgroup, hsame⟩ := hold
      exact ⟨_, List.mem_map_of_mem hgroup, (hkey group).symm ▸ hsame⟩
    · obtain ⟨old, hold, rfl⟩ := List.mem_map.1 hgroup
      obtain ⟨other, hother, hparses⟩ := h.identified old hold
      exact ⟨other, List.mem_append_left _ hother, (hkey old).symm ▸ hparses⟩
  case isFalse hany =>
    have hnew : ∀ group ∈ groups, group.1.same actual = false := by
      intro group hgroup
      rw [Bool.not_eq_true, List.any_eq_false] at hany
      simpa using hany group hgroup
    have hnone : done.filter (parsesTo pk actual) = [] := by
      rw [List.filter_eq_nil_iff]
      intro other hother hparses
      obtain ⟨key, hkey, hsame⟩ := parsesTo_iff.1 hparses
      obtain ⟨group, hgroup, hgroupKey⟩ := h.covered other hother key hkey
      have hgroupActual := hnew group hgroup
      rw [WheelIdentity.same_congr hgroupKey, hsame] at hgroupActual
      cases hgroupActual
    refine ⟨?_, fun group hgroup => ?_, fun other hother key hkey => ?_, fun group hgroup => ?_⟩
    · rw [List.pairwise_append]
      exact ⟨h.distinct, by simp, fun group hgroup other hother => by
        rw [List.mem_singleton.1 hother]
        exact hnew group hgroup⟩
    · rcases List.mem_append.1 hgroup with hgroup | hgroup
      · rw [List.filter_append, ← h.wheels_eq group hgroup, List.filter_singleton,
          parsesTo_of_identity hactual, actual.same_comm, hnew group hgroup]
        simp
      · rw [List.mem_singleton.1 hgroup, List.filter_append, hnone, List.filter_singleton,
          parsesTo_of_identity hactual]
        simp
    · rcases List.mem_append.1 hother with hother | hother
      · obtain ⟨group, hgroup, hsame⟩ := h.covered other hother key hkey
        exact ⟨group, List.mem_append_left _ hgroup, hsame⟩
      · rw [List.mem_singleton.1 hother, hactual] at hkey
        cases hkey
        exact ⟨_, List.mem_append_right _ (List.mem_singleton_self _), WheelIdentity.same_refl _⟩
    · rcases List.mem_append.1 hgroup with hgroup | hgroup
      · obtain ⟨other, hother, hparses⟩ := h.identified group hgroup
        exact ⟨other, List.mem_append_left _ hother, hparses⟩
      · rw [List.mem_singleton.1 hgroup]
        refine ⟨observed, List.mem_append_right _ (List.mem_singleton_self _), ?_⟩
        rw [parsesTo_of_identity hactual, WheelIdentity.same_refl]

/-- The body of the loop over the wheels. -/
def observeStep (pk : MarkerPackaging) (profile : TargetProfile)
    (state : List (WheelIdentity × List DownloadedWheel) × List ValidationIssue)
    (observed : DownloadedWheel) :
    List (WheelIdentity × List DownloadedWheel) × List ValidationIssue :=
  (match wheelIdentity pk observed with
    | some actual => groupWheel state.1 actual observed
    | none => state.1,
    state.2 ++ wheelIssues pk profile observed)

theorem observeStep_eq : observeStep pk profile = fun (groups, issues) observed =>
    let (actual, found) := observeWheel pk profile observed
    (match actual with
      | some actual => groupWheel groups actual observed
      | none => groups,
      issues ++ found) := by
  funext state observed
  rw [observeStep, ← observeWheel_fst profile]
  rfl

theorem observeWheels_eq (wheels : List DownloadedWheel) :
    observeWheels pk profile wheels = wheels.foldl (observeStep pk profile) ([], []) := by
  rw [observeStep_eq]
  rfl

variable (pk profile) in
/-- The loop over the wheels groups them and reports each of them. -/
theorem observeWheels_grouped (wheels : List DownloadedWheel) :
    Grouped pk wheels (observeWheels pk profile wheels).1 ∧
      (observeWheels pk profile wheels).2 = wheels.flatMap (wheelIssues pk profile) := by
  rw [observeWheels_eq]
  suffices hloop : ∀ rest done state, Grouped pk done state.1 →
      state.2 = done.flatMap (wheelIssues pk profile) →
      Grouped pk (done ++ rest) (rest.foldl (observeStep pk profile) state).1 ∧
        (rest.foldl (observeStep pk profile) state).2 =
          (done ++ rest).flatMap (wheelIssues pk profile) from
    hloop wheels [] ([], []) ⟨.nil, by simp, by simp, by simp⟩ rfl
  intro rest
  induction rest with
  | nil =>
      intro done state hgroups hissues
      rw [List.append_nil]
      exact ⟨hgroups, hissues⟩
  | cons observed rest ih =>
      intro done state hgroups hissues
      have hsplit : done ++ observed :: rest = (done ++ [observed]) ++ rest := by simp
      rw [hsplit, List.foldl_cons]
      refine ih (done ++ [observed]) _ ?_ ?_
      · rw [observeStep]
        cases hactual : wheelIdentity pk observed with
        | none => exact grouped_unparsed hgroups hactual
        | some actual => exact grouped_groupWheel hgroups hactual
      · rw [List.flatMap_append, ← hissues]
        simp [observeStep]

/-! ## The issues without their order -/

/-- What an expected package is reported for, by the number of wheels with its identity. -/
def countIssues (package : ResolvedPackage) : Nat → List ValidationIssue
  | 0 => [⟨.wheelMissing, package.name, "no matching Wheel was downloaded", none⟩]
  | 1 => []
  | _ + 2 => [⟨.wheelDuplicate, package.name, "multiple matching Wheels were downloaded", none⟩]

/-- The number of wheels with the identity of a package. -/
def matchCount (pk : MarkerPackaging) (wheels : List DownloadedWheel) (package : ResolvedPackage) :
    Nat :=
  (wheels.filter (parsesTo pk (package.name, package.version))).length

theorem parsesTo_congr {a b : WheelIdentity} (h : a.same b = true) : parsesTo pk a = parsesTo pk b := by
  funext observed
  rw [parsesTo, parsesTo]
  congr 1
  funext actual
  rw [actual.same_comm a, actual.same_comm b, WheelIdentity.same_congr h]

/-- The group of a package holds the wheels with its identity. -/
theorem matchingIssues_eq {wheels : List DownloadedWheel} (h : Grouped pk wheels groups)
    (package : ResolvedPackage) :
    matchingIssues groups package = countIssues package (matchCount pk wheels package) := by
  rw [matchingIssues, matchCount]
  cases hfound : groups.find? fun group =>
      group.1.same (package.name, package.version) with
  | none =>
      have hnone : wheels.filter (parsesTo pk (package.name, package.version)) = [] := by
        rw [List.filter_eq_nil_iff]
        intro observed hobserved hparses
        obtain ⟨actual, hactual, hsame⟩ := parsesTo_iff.1 hparses
        obtain ⟨group, hgroup, hgroupActual⟩ := h.covered observed hobserved actual hactual
        have hne := List.find?_eq_none.1 hfound group hgroup
        rw [WheelIdentity.same_congr hgroupActual] at hne
        exact hne hsame
      rw [hnone]
      rfl
  | some group =>
      obtain ⟨key, matching⟩ := group
      have hmem := List.mem_of_find?_eq_some hfound
      have hsame : key.same (package.name, package.version) = true := by
        have hkey := List.find?_some hfound
        exact hkey
      have hmatching : matching = wheels.filter (parsesTo pk (package.name, package.version)) := by
        rw [← parsesTo_congr hsame]
        exact h.wheels_eq _ hmem
      have hpos : 0 < (wheels.filter (parsesTo pk (package.name, package.version))).length := by
        obtain ⟨observed, hobserved, hparses⟩ := h.identified _ hmem
        rw [parsesTo_congr hsame] at hparses
        exact List.length_pos_of_mem (List.mem_filter.2 ⟨hobserved, hparses⟩)
      rw [← hmatching] at hpos ⊢
      change (if 1 < matching.length then _ else _) = _
      match hlength : matching.length, hpos with
      | 1, _ => rfl
      | _ + 2, _ => rfl

/-- The issue of a wheel that no expected package has. -/
def unexpectedIssue (observed : DownloadedWheel) : ValidationIssue :=
  ⟨.wheelUnexpected, observed.package, "Wheel is not in the resolved set", some observed.filename⟩

/-- Whether a wheel has an identity that no expected package has. -/
def isUnexpected (pk : MarkerPackaging) (expected : List ResolvedPackage)
    (observed : DownloadedWheel) : Bool :=
  (wheelIdentity pk observed).any fun actual =>
    !expected.any fun item => WheelIdentity.same (item.name, item.version) actual

/-- The wheels of groups with different identities are those that parse to one of them. -/
theorem flatMap_groups_perm {wheels : List DownloadedWheel} :
    ∀ {groups : List (WheelIdentity × List DownloadedWheel)},
      (groups.Pairwise fun group other => group.1.same other.1 = false) →
      (groups.flatMap fun group => wheels.filter (parsesTo pk group.1)).Perm
        (wheels.filter fun observed => groups.any fun group => parsesTo pk group.1 observed) := by
  intro groups hdistinct
  induction hdistinct with
  | nil => simp
  | @cons group groups hgroup _ ih =>
      rw [List.flatMap_cons]
      refine (List.Perm.append_left _ ih).trans ?_
      -- a wheel of the first group is in no other
      have hdisjoint : ∀ observed, (groups.any fun other => parsesTo pk other.1 observed) = true →
          parsesTo pk group.1 observed = false := by
        intro observed hany
        obtain ⟨other, hother, hparses⟩ := List.any_eq_true.1 hany
        obtain ⟨actual, hactual, hsame⟩ := parsesTo_iff.1 hparses
        rw [parsesTo_of_identity hactual, WheelIdentity.same_congr hsame, other.1.same_comm]
        exact hgroup other hother
      have hsplit := List.filter_append_perm (parsesTo pk group.1)
        (wheels.filter fun observed => (group :: groups).any fun other => parsesTo pk other.1 observed)
      rw [List.filter_filter, List.filter_filter] at hsplit
      refine List.Perm.trans (List.Perm.of_eq ?_) hsplit
      congr 1
      · refine List.filter_congr fun observed _ => ?_
        rw [List.any_cons]
        cases parsesTo pk group.1 observed <;> simp
      · refine List.filter_congr fun observed _ => ?_
        rw [List.any_cons]
        cases hany : groups.any fun other => parsesTo pk other.1 observed with
        | false => cases parsesTo pk group.1 observed <;> simp
        | true => simp [hdisjoint observed hany]

/-- Whether a package of the resolved set has an identity. -/
def isExpected (expected : List ResolvedPackage) (key : WheelIdentity) : Bool :=
  expected.any fun item => WheelIdentity.same (item.name, item.version) key

theorem isExpected_congr {expected : List ResolvedPackage} {a b : WheelIdentity}
    (h : a.same b = true) : isExpected expected a = isExpected expected b := by
  rw [isExpected, isExpected]
  congr 1
  funext item
  rw [WheelIdentity.same_comm _ a, WheelIdentity.same_comm _ b, WheelIdentity.same_congr h]

theorem unexpectedIssues_perm {wheels : List DownloadedWheel} (h : Grouped pk wheels groups)
    (expected : List ResolvedPackage) :
    (groups.flatMap (unexpectedIssues expected)).Perm
      ((wheels.filter (isUnexpected pk expected)).map unexpectedIssue) := by
  have hfilter : ∀ some : List (WheelIdentity × List DownloadedWheel),
      (∀ group ∈ some, group.2 = wheels.filter (parsesTo pk group.1)) →
      some.flatMap (unexpectedIssues expected) =
        ((some.filter fun group => !isExpected expected group.1).flatMap fun group =>
          wheels.filter (parsesTo pk group.1)).map unexpectedIssue := by
    intro some hsome
    induction some with
    | nil => rfl
    | cons group some ih =>
        have hrest := ih fun other hother => hsome other (List.mem_cons_of_mem _ hother)
        rw [List.flatMap_cons, hrest, unexpectedIssues, hsome group List.mem_cons_self]
        change (if isExpected expected group.1 = true then [] else _) ++ _ = _
        cases hexpected : isExpected expected group.1 with
        | true => simp [hexpected]
        | false =>
            simp only [List.filter_cons, hexpected, Bool.not_false, if_true, List.flatMap_cons,
              List.map_append]
            rfl
  rw [hfilter groups h.wheels_eq]
  refine ((flatMap_groups_perm (h.distinct.filter _)).map unexpectedIssue).trans
    (List.Perm.of_eq ?_)
  congr 1
  refine List.filter_congr fun observed hobserved => ?_
  rw [Bool.eq_iff_iff, List.any_eq_true, isUnexpected, Option.any_eq_true]
  constructor
  · rintro ⟨group, hgroup, hparses⟩
    obtain ⟨actual, hactual, hsame⟩ := parsesTo_iff.1 hparses
    have hnot := (List.mem_filter.1 hgroup).2
    rw [← isExpected_congr hsame] at hnot
    exact ⟨actual, hactual, hnot⟩
  · rintro ⟨actual, hactual, hnot⟩
    obtain ⟨group, hgroup, hsame⟩ := h.covered observed hobserved actual hactual
    refine ⟨group, List.mem_filter.2 ⟨hgroup, ?_⟩, ?_⟩
    · rw [isExpected_congr hsame]
      exact hnot
    · rw [parsesTo_of_identity hactual]
      exact WheelIdentity.same_symm hsame

/-- `sorted(packages, key=lambda item: (item.name, item.version))`. -/
def sortedResolved (packages : List ResolvedPackage) : List ResolvedPackage :=
  packages.insertionSort fun a b => toLex (a.name, a.version.key) ≤ toLex (b.name, b.version.key)

/-- The packages whose canonical name no other has. -/
def expectedPackages (pk : MarkerPackaging) (packages : List ResolvedPackage) :
    List ResolvedPackage :=
  packages.filter fun item => pk.canonicalizeName item.name ∉ duplicateNames pk packages

/-- The issue of a canonical name that several packages have. -/
def duplicateIssue (name : String) : ValidationIssue :=
  ⟨.resolutionDuplicatePackage, name, "resolved set contains multiple versions of one package",
    none⟩

/-- All issues, in an order of their own; `checked` are those of the packages. -/
def closureIssues (pk : MarkerPackaging) (profile : TargetProfile) (packages : List ResolvedPackage)
    (wheels : List DownloadedWheel) (checked : List (List ValidationIssue)) : List ValidationIssue :=
  let expected := expectedPackages pk packages
  (duplicateNames pk packages).map duplicateIssue ++ wheels.flatMap (wheelIssues pk profile) ++
    expected.flatMap (fun package => countIssues package (matchCount pk wheels package)) ++
    (wheels.filter (isUnexpected pk expected)).map unexpectedIssue ++ checked.flatten

/-! ## Sorting -/

/-- `sorted` with a key that tells the items apart does not depend on their order. -/
theorem insertionSort_eq_of_perm {α κ : Type} [LinearOrder κ] (key : α → κ) {items others : List α}
    (hperm : items.Perm others)
    (hinj : ∀ a ∈ items, ∀ b ∈ items, key a = key b → a = b) :
    (items.insertionSort fun a b => key a ≤ key b) =
      others.insertionSort fun a b => key a ≤ key b := by
  have : Std.Total fun a b => key a ≤ key b := ⟨fun a b => le_total (key a) (key b)⟩
  have : IsTrans α fun a b => key a ≤ key b := ⟨fun _ _ _ => le_trans⟩
  have hitems := List.perm_insertionSort (fun a b => key a ≤ key b) items
  have hothers := List.perm_insertionSort (fun a b => key a ≤ key b) others
  refine List.Perm.eq_of_pairwise (fun a b ha hb hab hba => ?_)
    (List.pairwise_insertionSort _ items) (List.pairwise_insertionSort _ others)
    (hitems.trans (hperm.trans hothers.symm))
  exact hinj a (hitems.mem_iff.1 ha) b (hperm.mem_iff.2 (hothers.mem_iff.1 hb)) (le_antisymm hab hba)

/-- The codes whose issues name a file. -/
def ValidationIssueCode.namesFile : ValidationIssueCode → Bool
  | .wheelUnexpected | .wheelNameVersionMismatch | .wheelFilenameInvalid | .wheelWrongPlatform => true
  | _ => false

/-- An issue names a file exactly when its code says so. -/
def NamesFile (issue : ValidationIssue) : Prop :=
  issue.filename.isSome = ValidationIssueCode.namesFile issue.code

theorem ValidationIssueCode.value_injective :
    Function.Injective ValidationIssueCode.value := by
  intro a b h
  cases a <;> cases b <;> first | rfl | exact absurd h (by decide)

/-- The key of an issue tells the issues apart whose codes decide whether they name a file. -/
theorem eq_of_issueKey {a b : ValidationIssue} (ha : NamesFile a) (hb : NamesFile b)
    (h : issueKey a = issueKey b) : a = b := by
  obtain ⟨code, package, detail, filename⟩ := a
  obtain ⟨code', package', detail', filename'⟩ := b
  simp only [issueKey, EmbeddingLike.apply_eq_iff_eq, Prod.mk.injEq] at h
  obtain ⟨rfl, hcode, hfilename, rfl⟩ := h
  cases ValidationIssueCode.value_injective hcode
  have hsome : filename.isSome = filename'.isSome := ha.trans hb.symm
  cases filename <;> cases filename' <;> simp_all

/-! ## Every issue names its file -/

theorem wheelIssues_namesFile (observed : DownloadedWheel) :
    ∀ issue ∈ wheelIssues pk profile observed, NamesFile issue := by
  rw [wheelIssues, observeWheel]
  cases pk.parseWheelFilename observed.filename with
  | none =>
      intro issue hissue
      rw [List.mem_singleton.1 hissue]
      rfl
  | some parsed =>
      intro issue hissue
      rcases List.mem_append.1 hissue with hissue | hissue
      · split at hissue
        · cases hissue
        · rw [List.mem_singleton.1 hissue]
          rfl
      · split at hissue
        · cases hissue
        · rw [List.mem_singleton.1 hissue]
          rfl

theorem countIssues_namesFile (package : ResolvedPackage) (count : Nat) :
    ∀ issue ∈ countIssues package count, NamesFile issue := by
  intro issue hissue
  match count, hissue with
  | 0, hissue =>
      rw [List.mem_singleton.1 hissue]
      rfl
  | _ + 2, hissue =>
      rw [List.mem_singleton.1 hissue]
      rfl

theorem validateRequiresPython_namesFile {package : ResolvedPackage} {issues : List ValidationIssue}
    (h : validateRequiresPython pk profile package = .ok issues) :
    ∀ issue ∈ issues, NamesFile issue := by
  rw [validateRequiresPython] at h
  cases hpython : package.requiresPython with
  | none =>
      rw [hpython] at h
      cases h
      simp
  | some text =>
      simp only [hpython] at h
      cases hset : pk.specifierSet text with
      | none =>
          simp only [hset] at h
          cases h
          intro issue hissue
          rw [List.mem_singleton.1 hissue]
          rfl
      | some specifiers =>
          simp only [hset] at h
          obtain ⟨version, -, h⟩ := bind_ok.1 h
          cases h
          intro issue hissue
          split at hissue
          · cases hissue
          · rw [List.mem_singleton.1 hissue]
            rfl

theorem validateDependency_namesFile {package : ResolvedPackage} {expected : List ResolvedPackage}
    {requirement : Pep440.Requirement} {raw : String} :
    ∀ issue ∈ validateDependency pk package expected requirement raw, NamesFile issue := by
  rw [validateDependency]
  cases expected.reverse.find? fun item => item.name = pk.canonicalizeName requirement.name with
  | none =>
      intro issue hissue
      rw [List.mem_singleton.1 hissue]
      rfl
  | some item =>
      intro issue hissue
      change issue ∈ (if _ then _ else _) at hissue
      split at hissue
      · cases hissue
      · rw [List.mem_singleton.1 hissue]
        rfl

theorem validateRequirement_namesFile {package : ResolvedPackage} {expected : List ResolvedPackage}
    {environment : Environment} {raw : String} {issues : List ValidationIssue}
    (h : validateRequirement pk package expected environment raw = .ok issues) :
    ∀ issue ∈ issues, NamesFile issue := by
  simp only [validateRequirement] at h
  split at h
  · cases h
  · cases h
    intro issue hissue
    rw [List.mem_singleton.1 hissue]
    rfl
  · split at h
    · cases h
      exact validateDependency_namesFile
    · split at h
      · cases h
        intro issue hissue
        rw [List.mem_singleton.1 hissue]
        rfl
      · cases h
        simp
      · cases h
        exact validateDependency_namesFile

theorem packageIssues_namesFile {duplicates : List String} {expected : List ResolvedPackage}
    {package : ResolvedPackage} {issues : List ValidationIssue}
    (h : packageIssues pk profile duplicates expected package = .ok issues) :
    ∀ issue ∈ issues, NamesFile issue := by
  obtain ⟨python, hpython, h⟩ := bind_ok.1 h
  split at h
  · cases h
    exact validateRequiresPython_namesFile hpython
  · obtain ⟨dependencies, hdependencies, h⟩ := bind_ok.1 h
    cases h
    intro issue hissue
    rcases List.mem_append.1 hissue with hissue | hissue
    · exact validateRequiresPython_namesFile hpython issue hissue
    · obtain ⟨environment, -, hdependencies⟩ := bind_ok.1 hdependencies
      obtain ⟨found, hfound, hdependencies⟩ := bind_ok.1 hdependencies
      cases hdependencies
      obtain ⟨part, hpart, hissue⟩ := List.mem_flatten.1 hissue
      obtain ⟨raw, -, hraw⟩ := exists_mem_of_forall₂ (mapM_ok hfound).flip part hpart
      exact validateRequirement_namesFile hraw issue hissue

theorem closureIssues_namesFile (packages : List ResolvedPackage) (wheels : List DownloadedWheel)
    {checkedPackages : List ResolvedPackage} {checked : List (List ValidationIssue)}
    {duplicates : List String} {expected : List ResolvedPackage}
    (h : checkedPackages.mapM (packageIssues pk profile duplicates expected) = .ok checked) :
    ∀ issue ∈ closureIssues pk profile packages wheels checked, NamesFile issue := by
  intro issue hissue
  simp only [closureIssues, List.mem_append, List.mem_map, List.mem_flatMap, List.mem_flatten]
    at hissue
  rcases hissue with (((⟨name, -, rfl⟩ | ⟨observed, -, hissue⟩) | ⟨package, -, hissue⟩) |
    ⟨observed, -, rfl⟩) | ⟨part, hpart, hissue⟩
  · rfl
  · exact wheelIssues_namesFile observed issue hissue
  · exact countIssues_namesFile package _ issue hissue
  · rfl
  · obtain ⟨package, -, hpackage⟩ := exists_mem_of_forall₂ (mapM_ok h).flip part hpart
    exact packageIssues_namesFile hpackage issue hissue

/-! ## The report -/

/-- The issues as the report lists them. -/
def sortedIssues (issues : List ValidationIssue) : List ValidationIssue :=
  issues.insertionSort fun a b => issueKey a ≤ issueKey b

/-- A report is that of all issues, sorted by their keys. -/
theorem validateClosure_ok_iff {resolved : ResolutionResult} {wheels : List DownloadedWheel}
    {report : StaticValidationReport} :
    validateClosure pk profile resolved wheels = .ok report ↔
      ∃ checked, (sortedResolved resolved.packages).mapM (packageIssues pk profile
          (duplicateNames pk (sortedResolved resolved.packages))
          (expectedPackages pk (sortedResolved resolved.packages))) = .ok checked ∧
        report = reportOf (sortedIssues
          (closureIssues pk profile (sortedResolved resolved.packages) wheels checked)) := by
  obtain ⟨hgroups, hobserved⟩ := observeWheels_grouped pk profile wheels
  have hissues : ∀ checked, (sortedResolved resolved.packages).mapM (packageIssues pk profile
          (duplicateNames pk (sortedResolved resolved.packages))
          (expectedPackages pk (sortedResolved resolved.packages))) = .ok checked →
      sortedIssues ((((duplicateNames pk (sortedResolved resolved.packages)).insertionSort
            (· ≤ ·)).map duplicateIssue ++ (observeWheels pk profile wheels).2 ++
          (expectedPackages pk (sortedResolved resolved.packages)).flatMap
            (matchingIssues (observeWheels pk profile wheels).1) ++
          (observeWheels pk profile wheels).1.flatMap
            (unexpectedIssues (expectedPackages pk (sortedResolved resolved.packages)))) ++
          checked.flatten) =
        sortedIssues (closureIssues pk profile (sortedResolved resolved.packages) wheels checked) := by
    intro checked hchecked
    have hnames := closureIssues_namesFile (sortedResolved resolved.packages) wheels hchecked
    refine (insertionSort_eq_of_perm issueKey ?_ fun a ha b hb =>
      eq_of_issueKey (hnames a ha) (hnames b hb)).symm
    rw [closureIssues, hobserved]
    refine List.Perm.append_right _ (List.Perm.append (List.Perm.append (List.Perm.append ?_
      (List.Perm.refl _)) (List.Perm.of_eq ?_)) ?_)
    · exact ((List.perm_insertionSort _ _).symm).map _
    · exact List.flatMap_congr fun package _ => (matchingIssues_eq hgroups package).symm
    · exact (unexpectedIssues_perm hgroups _).symm
  rw [validateClosure]
  constructor
  · intro h
    obtain ⟨checked, hchecked, h⟩ := bind_ok.1 h
    cases h
    refine ⟨checked, hchecked, ?_⟩
    rw [← hissues checked hchecked]
    rfl
  · rintro ⟨checked, hchecked, rfl⟩
    refine bind_ok.2 ⟨checked, hchecked, ?_⟩
    rw [← hissues checked hchecked]
    rfl

/-! ## Permuted packages and wheels -/

variable {packages others : List ResolvedPackage}

theorem canonicalNames_perm (hperm : packages.Perm others) (name : String) :
    (packages.filter fun item => pk.canonicalizeName item.name = name).length =
      (others.filter fun item => pk.canonicalizeName item.name = name).length :=
  (hperm.filter _).length_eq

theorem duplicateNames_perm (hperm : packages.Perm others) :
    (duplicateNames pk packages).Perm (duplicateNames pk others) := by
  have hcond : ∀ name : String,
      (decide (1 < (packages.filter fun item => pk.canonicalizeName item.name = name).length)) =
        decide (1 < (others.filter fun item => pk.canonicalizeName item.name = name).length) :=
    fun name => by rw [canonicalNames_perm hperm]
  rw [duplicateNames, duplicateNames]
  simp only [hcond]
  exact (hperm.map _).dedup.filter _

variable (pk) in
theorem expectedPackages_perm (hperm : packages.Perm others) :
    (expectedPackages pk packages).Perm (expectedPackages pk others) := by
  have hmem : ∀ name, name ∈ duplicateNames pk packages ↔ name ∈ duplicateNames pk others :=
    fun name => (duplicateNames_perm hperm).mem_iff
  rw [expectedPackages, expectedPackages]
  simp only [hmem]
  exact hperm.filter _

theorem mem_duplicateNames {name : String} :
    name ∈ duplicateNames pk packages ↔
      1 < (packages.filter fun item => pk.canonicalizeName item.name = name).length := by
  rw [duplicateNames, List.mem_filter, decide_eq_true_iff, List.mem_dedup]
  constructor
  · exact And.right
  · intro h
    refine ⟨?_, h⟩
    obtain ⟨item, hitem⟩ := List.exists_mem_of_length_pos (Nat.lt_of_succ_lt h)
    obtain ⟨hmem, hname⟩ := List.mem_filter.1 hitem
    exact List.mem_map.2 ⟨item, hmem, of_decide_eq_true hname⟩

/-- No two expected packages have one canonical name. -/
theorem expectedPackages_nodup (packages : List ResolvedPackage) :
    ((expectedPackages pk packages).map fun item => pk.canonicalizeName item.name).Nodup := by
  rw [List.nodup_iff_count_le_one]
  intro name
  by_cases hduplicate : name ∈ duplicateNames pk packages
  · rw [List.count_eq_zero_of_not_mem]
    · exact Nat.zero_le _
    · intro hmem
      obtain ⟨item, hitem, rfl⟩ := List.mem_map.1 hmem
      exact of_decide_eq_true (List.mem_filter.1 hitem).2 hduplicate
  · rw [mem_duplicateNames, not_lt] at hduplicate
    refine le_trans ?_ hduplicate
    refine (((List.filter_sublist (l := packages)).map _).count_le name).trans (le_of_eq ?_)
    rw [List.count_eq_countP, List.countP_map, List.countP_eq_length_filter]
    congr 1

theorem find?_perm {α κ : Type} [DecidableEq κ] (key : α → κ) {items others : List α}
    (hperm : items.Perm others) (hnodup : (items.map key).Nodup) (k : κ) :
    (items.find? fun item => key item = k) = others.find? fun item => key item = k := by
  cases hfound : items.find? fun item => key item = k with
  | none =>
      symm
      rw [List.find?_eq_none] at hfound ⊢
      exact fun item hitem => hfound item (hperm.mem_iff.2 hitem)
  | some a =>
      have ha := List.mem_of_find?_eq_some hfound
      have hka : key a = k := by simpa using List.find?_some hfound
      cases hother : others.find? fun item => key item = k with
      | none =>
          exact absurd hka (by simpa using List.find?_eq_none.1 hother a (hperm.mem_iff.1 ha))
      | some b =>
          have hb := hperm.mem_iff.2 (List.mem_of_find?_eq_some hother)
          have hkb : key b = k := by simpa using List.find?_some hother
          rw [List.inj_on_of_nodup_map hnodup ha hb (hka.trans hkb.symm)]

/-- Each package is checked against the expected packages and not against their order. -/
theorem packageIssues_perm (hperm : packages.Perm others) :
    packageIssues pk profile (duplicateNames pk packages) (expectedPackages pk packages) =
      packageIssues pk profile (duplicateNames pk others) (expectedPackages pk others) := by
  have hnames : ((expectedPackages pk packages).reverse.map ResolvedPackage.name).Nodup := by
    rw [List.map_reverse, List.nodup_reverse]
    refine List.Nodup.of_map pk.canonicalizeName ?_
    rw [List.map_map]
    exact expectedPackages_nodup packages
  have hreverse : (expectedPackages pk packages).reverse.Perm (expectedPackages pk others).reverse :=
    (List.reverse_perm _).trans ((expectedPackages_perm pk hperm).trans (List.reverse_perm _).symm)
  have hdependency : ∀ package requirement raw,
      validateDependency pk package (expectedPackages pk packages) requirement raw =
        validateDependency pk package (expectedPackages pk others) requirement raw := by
    intro package requirement raw
    simp only [validateDependency, find?_perm ResolvedPackage.name hreverse hnames]
  have hrequirement : ∀ package environment,
      validateRequirement pk package (expectedPackages pk packages) environment =
        validateRequirement pk package (expectedPackages pk others) environment := by
    intro package environment
    funext raw
    simp only [validateRequirement, hdependency]
  have hmem : ∀ name, name ∈ duplicateNames pk packages ↔ name ∈ duplicateNames pk others :=
    fun name => (duplicateNames_perm hperm).mem_iff
  funext package
  have hdependencies : validateDependencies pk profile package (expectedPackages pk packages) =
      validateDependencies pk profile package (expectedPackages pk others) := by
    rw [validateDependencies, validateDependencies]
    simp only [hrequirement]
  rw [packageIssues, packageIssues, hdependencies]
  simp only [hmem]

theorem closureIssues_perm {wheels observed : List DownloadedWheel}
    {checked checked' : List (List ValidationIssue)} (hpackages : packages.Perm others)
    (hwheels : wheels.Perm observed) (hchecked : checked.Perm checked') :
    (closureIssues pk profile packages wheels checked).Perm
      (closureIssues pk profile others observed checked') := by
  have hexpected := expectedPackages_perm pk hpackages
  have hcount : ∀ package, matchCount pk wheels package = matchCount pk observed package :=
    fun package => (hwheels.filter _).length_eq
  have hunexpected : isUnexpected pk (expectedPackages pk packages) =
      isUnexpected pk (expectedPackages pk others) := by
    funext observed
    rw [isUnexpected, isUnexpected]
    congr 1
    funext actual
    rw [hexpected.any_eq]
  rw [closureIssues, closureIssues]
  simp only [hcount, hunexpected]
  exact ((((duplicateNames_perm hpackages).map _).append (hwheels.flatMap_right _)).append
    (hexpected.flatMap_right _)).append ((hwheels.filter _).map _) |>.append hchecked.flatten

theorem sortedResolved_perm (hperm : packages.Perm others) :
    (sortedResolved packages).Perm (sortedResolved others) :=
  (List.perm_insertionSort _ _).trans (hperm.trans (List.perm_insertionSort _ _).symm)

/-- Permuted packages and wheels have the report of those before, if there is one. -/
theorem validateClosure_of_perm {resolved resolved' : ResolutionResult}
    {wheels observed : List DownloadedWheel} {report : StaticValidationReport}
    (hpackages : resolved.packages.Perm resolved'.packages) (hwheels : wheels.Perm observed)
    (h : validateClosure pk profile resolved wheels = .ok report) :
    validateClosure pk profile resolved' observed = .ok report := by
  obtain ⟨checked, hchecked, rfl⟩ := validateClosure_ok_iff.1 h
  have hsorted := sortedResolved_perm hpackages
  have hnames := closureIssues_namesFile (sortedResolved resolved.packages) wheels hchecked
  rw [packageIssues_perm hsorted] at hchecked
  obtain ⟨checked', hchecked', hperm⟩ := mapM_perm hsorted hchecked
  refine validateClosure_ok_iff.2 ⟨checked', hchecked', ?_⟩
  rw [sortedIssues, sortedIssues, insertionSort_eq_of_perm issueKey
    (closureIssues_perm hsorted hwheels hperm) fun a ha b hb =>
      eq_of_issueKey (hnames a ha) (hnames b hb)]

end WheelForge.Validation
