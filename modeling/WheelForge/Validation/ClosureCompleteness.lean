import WheelForge.Validation.ClosureReport
import WheelForge.Validation.RecordAgreement

/-!
# Complete closures

`ClosureHolds` says what a resolved set with its wheels must be. A report is complete exactly when the set
is so and every marker can be evaluated (`validateClosure_complete_iff`); permuted packages and wheels
have the same report (`validateClosure_perm`).
-/

set_option autoImplicit false

namespace WheelForge.Validation

open WheelForge.Build
open WheelForge.Pep440 (PackagingError Requirement Version)
open WheelForge.Python
open WheelForge.Resolver (ResolvedPackage ResolutionResult)
open WheelForge.Target (TargetProfile linuxTarget wheelIsCompatible)

/-! ## The predicate -/

section Holds

variable (pk : MarkerPackaging) (profile : TargetProfile) (environment : Environment)
  (undefined : Prop) (packages : List ResolvedPackage) (wheels : List DownloadedWheel)

/-- A resolved package has the name and a version of a requirement. -/
def DependencyHolds (requirement : Requirement) : Prop :=
  ∃ item ∈ packages, item.name = pk.canonicalizeName requirement.name ∧
    requirement.specifier.all (pk.contains · item.version) = true

/-- A `Requires-Dist` parses and, when its marker holds, is satisfied; `undefined` is what is asked of a
marker that cannot be evaluated. -/
def RequirementHolds (raw : String) : Prop :=
  ∃ requirement, pk.requirement raw = .ok requirement ∧
    (requirement.marker ≠ none → pk.evaluateMarker raw environment = none → undefined) ∧
    ((requirement.marker ≠ none → pk.evaluateMarker raw environment = some true) →
      DependencyHolds pk packages requirement)

/-- A `Requires-Python` parses and admits the target. -/
def RequiresPythonHolds (package : ResolvedPackage) : Prop :=
  ∀ text, package.requiresPython = some text → ∃ specifiers version,
    pk.specifierSet text = some specifiers ∧ pk.version profile.pythonFullVersion = some version ∧
      specifiers.all (pk.contains · version) = true

/-- What a resolved set with its wheels must be. -/
structure ClosureHolds : Prop where
  names_nodup : (packages.map fun item => pk.canonicalizeName item.name).Nodup
  one_wheel : ∀ package ∈ packages, matchCount pk wheels package = 1
  no_other : ∀ observed ∈ wheels, ∃ package ∈ packages,
    parsesTo pk (package.name, package.version) observed = true
  agrees : ∀ observed ∈ wheels, parsesTo pk (observed.package, observed.version) observed = true
  compatible : ∀ observed ∈ wheels,
    wheelIsCompatible pk.toWheelPackaging observed.filename profile = true
  python : ∀ package ∈ packages, RequiresPythonHolds pk profile package
  requirements : ∀ package ∈ packages, ∀ raw ∈ package.requiresDist,
    RequirementHolds pk environment undefined packages raw

end Holds

variable {pk : MarkerPackaging} {profile : TargetProfile} {environment : Environment}
  {packages : List ResolvedPackage} {wheels : List DownloadedWheel}

/-! ## What is reported for nothing -/

theorem duplicateNames_eq_nil_iff :
    duplicateNames pk packages = [] ↔
      (packages.map fun item => pk.canonicalizeName item.name).Nodup := by
  rw [List.eq_nil_iff_forall_not_mem, List.nodup_iff_count_le_one]
  refine forall_congr' fun name => ?_
  rw [mem_duplicateNames, not_lt, List.count_eq_countP, List.countP_map,
    List.countP_eq_length_filter]
  exact Iff.of_eq (congrArg (· ≤ 1) (congrArg List.length (congrArg (List.filter · packages) rfl)))

theorem wheelIssues_eq_nil_iff {observed : DownloadedWheel} :
    wheelIssues pk profile observed = [] ↔
      parsesTo pk (observed.package, observed.version) observed = true ∧
        wheelIsCompatible pk.toWheelPackaging observed.filename profile = true := by
  rw [wheelIssues, observeWheel, parsesTo, wheelIdentity]
  cases pk.parseWheelFilename observed.filename with
  | none => simp
  | some parsed =>
      obtain ⟨name, version, tags⟩ := parsed
      simp only [Option.map_some, Option.any_some, List.append_eq_nil_iff]
      refine and_congr ?_ ?_
      · split <;> simp_all
      · split <;> simp_all

theorem countIssues_eq_nil_iff {package : ResolvedPackage} {count : Nat} :
    countIssues package count = [] ↔ count = 1 := by
  match count with
  | 0 => simp [countIssues]
  | 1 => simp [countIssues]
  | _ + 2 => simp [countIssues]

theorem isUnexpected_eq_false_iff {observed : DownloadedWheel}
    (h : parsesTo pk (observed.package, observed.version) observed = true) :
    isUnexpected pk packages observed = false ↔
      ∃ package ∈ packages, parsesTo pk (package.name, package.version) observed = true := by
  obtain ⟨actual, hactual, -⟩ := parsesTo_iff.1 h
  rw [isUnexpected, hactual, Option.any_some, Bool.not_eq_false', List.any_eq_true]
  refine exists_congr fun package => and_congr_right fun _ => ?_
  rw [parsesTo_of_identity hactual, actual.same_comm]

theorem validateRequiresPython_eq_nil_iff {package : ResolvedPackage} :
    validateRequiresPython pk profile package = .ok [] ↔ RequiresPythonHolds pk profile package := by
  rw [validateRequiresPython, RequiresPythonHolds]
  cases hpython : package.requiresPython with
  | none => simp
  | some text =>
      simp only [Option.some.injEq, forall_eq']
      cases hset : pk.specifierSet text with
      | none => simp
      | some specifiers =>
          constructor
          · intro h
            obtain ⟨version, hversion, h⟩ := bind_ok.1 h
            rw [orRaise_ok] at hversion
            refine ⟨specifiers, version, rfl, hversion, ?_⟩
            by_contra hall
            rw [if_neg hall] at h
            cases h
          · rintro ⟨specifiers', version, heq, hversion, hall⟩
            cases heq
            refine bind_ok.2 ⟨version, orRaise_ok.2 hversion, ?_⟩
            rw [if_pos hall]
            rfl

theorem validateDependency_eq_nil_iff {package : ResolvedPackage} {requirement : Requirement}
    {raw : String} (hnames : (packages.map ResolvedPackage.name).Nodup) :
    validateDependency pk package packages requirement raw = [] ↔
      DependencyHolds pk packages requirement := by
  rw [validateDependency, DependencyHolds]
  cases hfound : packages.reverse.find? fun item =>
      item.name = pk.canonicalizeName requirement.name with
  | none =>
      simp only [List.cons_ne_nil, false_iff]
      rintro ⟨item, hitem, hname, -⟩
      exact absurd hname (by simpa using List.find?_eq_none.1 hfound item (by simpa using hitem))
  | some item =>
      have hitem : item ∈ packages := by
        simpa using List.mem_of_find?_eq_some hfound
      have hname : item.name = pk.canonicalizeName requirement.name := by
        simpa using List.find?_some hfound
      dsimp only
      constructor
      · intro h
        refine ⟨item, hitem, hname, ?_⟩
        by_contra hall
        rw [if_neg hall] at h
        cases h
      · rintro ⟨other, hother, hothername, hall⟩
        rw [List.inj_on_of_nodup_map hnames hitem hother (hname.trans hothername.symm), if_pos hall]

theorem validateRequirement_eq_nil_iff (package : ResolvedPackage) {raw : String}
    (hnames : (packages.map ResolvedPackage.name).Nodup) :
    validateRequirement pk package packages environment raw = .ok [] ↔
      RequirementHolds pk environment False packages raw := by
  simp only [validateRequirement, RequirementHolds]
  cases hrequirement : pk.requirement raw with
  | error e => cases e <;> simp
  | ok requirement =>
      simp only [Except.ok.injEq, exists_eq_left']
      cases hmarker : requirement.marker with
      | none => simp [validateDependency_eq_nil_iff hnames]
      | some marker =>
          simp only [ne_eq, reduceCtorEq, not_false_eq_true, forall_true_left]
          cases hvalue : pk.evaluateMarker raw environment with
          | none => simp
          | some value =>
              cases value with
              | false => simp
              | true => simp [validateDependency_eq_nil_iff hnames]

/-- A comprehension without any issue. -/
theorem mapM_flatten_eq_nil_iff {ι ε α : Type} {f : ι → Except ε (List α)} {items : List ι} :
    (∃ results, items.mapM f = .ok results ∧ results.flatten = []) ↔
      ∀ item ∈ items, f item = .ok [] := by
  constructor
  · rintro ⟨results, h, hnil⟩ item hitem
    obtain ⟨result, hresult, hvalue⟩ := exists_mem_of_forall₂ (mapM_ok h) item hitem
    rw [hvalue, List.flatten_eq_nil_iff.1 hnil result hresult]
  · intro h
    obtain ⟨results, hresults⟩ := exists_mapM_ok fun item hitem => ⟨[], h item hitem⟩
    refine ⟨results, hresults, List.flatten_eq_nil_iff.2 fun result hresult => ?_⟩
    obtain ⟨item, hitem, hvalue⟩ := exists_mem_of_forall₂ (mapM_ok hresults).flip result hresult
    have hnil := h item hitem
    change f item = .ok result at hvalue
    rw [hvalue] at hnil
    exact Except.ok.inj hnil

theorem validateDependencies_eq_nil_iff {package : ResolvedPackage}
    (hprofile : markerEnvironment profile = some environment)
    (hnames : (packages.map ResolvedPackage.name).Nodup) :
    validateDependencies pk profile package packages = .ok [] ↔
      ∀ raw ∈ package.requiresDist,
        RequirementHolds pk (environment ++ [("extra", "")]) False packages raw := by
  have hsorted : ∀ raw, raw ∈ package.requiresDist.insertionSort (· ≤ ·) ↔
      raw ∈ package.requiresDist := fun raw => List.mem_insertionSort _
  rw [validateDependencies]
  constructor
  · intro h raw hraw
    obtain ⟨environment', henvironment, hloop⟩ := bind_ok.1 h
    obtain ⟨results, hresults, hnil⟩ := bind_ok.1 hloop
    rw [orRaise_ok, hprofile] at henvironment
    cases henvironment
    exact (validateRequirement_eq_nil_iff package hnames).1
      (mapM_flatten_eq_nil_iff.1 ⟨results, hresults, Except.ok.inj hnil⟩ raw ((hsorted raw).2 hraw))
  · intro h
    obtain ⟨results, hresults, hnil⟩ := mapM_flatten_eq_nil_iff.2 fun raw hraw =>
      (validateRequirement_eq_nil_iff package hnames).2 (h raw ((hsorted raw).1 hraw))
    refine bind_ok.2 ⟨environment, orRaise_ok.2 hprofile, bind_ok.2 ⟨results, hresults, ?_⟩⟩
    rw [hnil]
    rfl

variable (pk) in
theorem packageIssues_eq_nil_iff {package : ResolvedPackage}
    (hprofile : markerEnvironment profile = some environment)
    (hnames : (packages.map ResolvedPackage.name).Nodup) :
    packageIssues pk profile [] packages package = .ok [] ↔
      RequiresPythonHolds pk profile package ∧ ∀ raw ∈ package.requiresDist,
        RequirementHolds pk (environment ++ [("extra", "")]) False packages raw := by
  rw [← validateRequiresPython_eq_nil_iff, ← validateDependencies_eq_nil_iff hprofile hnames,
    packageIssues]
  simp only [List.not_mem_nil, if_false]
  constructor
  · intro h
    obtain ⟨python, hpython, h⟩ := bind_ok.1 h
    obtain ⟨dependencies, hdependencies, h⟩ := bind_ok.1 h
    obtain ⟨rfl, rfl⟩ := List.append_eq_nil_iff.1 (Except.ok.inj h)
    exact ⟨hpython, hdependencies⟩
  · rintro ⟨hpython, hdependencies⟩
    exact bind_ok.2 ⟨[], hpython, bind_ok.2 ⟨[], hdependencies, rfl⟩⟩

/-! ## The iff -/

theorem expectedPackages_of_nodup (h : duplicateNames pk packages = []) :
    expectedPackages pk packages = packages := by
  rw [expectedPackages, h]
  simp

theorem sortedIssues_eq_nil_iff {issues : List ValidationIssue} :
    sortedIssues issues = [] ↔ issues = [] := by
  rw [← List.length_eq_zero_iff, sortedIssues, List.length_insertionSort, List.length_eq_zero_iff]

/-- Whether a closure holds does not depend on the order of the packages. -/
theorem ClosureHolds.of_perm {others : List ResolvedPackage} {undefined : Prop}
    (hperm : packages.Perm others)
    (h : ClosureHolds pk profile environment undefined packages wheels) :
    ClosureHolds pk profile environment undefined others wheels := by
  have hmem : ∀ {package}, package ∈ others → package ∈ packages := hperm.mem_iff.2
  refine ⟨((hperm.map _).nodup_iff).1 h.names_nodup, fun package hpackage =>
    h.one_wheel package (hmem hpackage), fun observed hobserved => ?_, h.agrees, h.compatible,
    fun package hpackage => h.python package (hmem hpackage), fun package hpackage raw hraw => ?_⟩
  · obtain ⟨package, hpackage, hparses⟩ := h.no_other observed hobserved
    exact ⟨package, hperm.mem_iff.1 hpackage, hparses⟩
  · obtain ⟨requirement, hparse, hundefined, hholds⟩ :=
      h.requirements package (hmem hpackage) raw hraw
    refine ⟨requirement, hparse, hundefined, fun hmarker => ?_⟩
    obtain ⟨item, hitem, hdependency⟩ := hholds hmarker
    exact ⟨item, hperm.mem_iff.1 hitem, hdependency⟩

variable (pk packages wheels) in
theorem closureIssues_eq_nil_iff (hprofile : markerEnvironment profile = some environment) :
    (∃ checked, packages.mapM (packageIssues pk profile (duplicateNames pk packages)
        (expectedPackages pk packages)) = .ok checked ∧
      closureIssues pk profile packages wheels checked = []) ↔
      ClosureHolds pk profile (environment ++ [("extra", "")]) False packages wheels := by
  constructor
  · rintro ⟨checked, hchecked, hnil⟩
    simp only [closureIssues, List.append_eq_nil_iff, List.map_eq_nil_iff, List.flatMap_eq_nil_iff,
      List.filter_eq_nil_iff] at hnil
    obtain ⟨⟨⟨⟨hduplicates, hwheels⟩, hcounts⟩, hunexpected⟩, hnone⟩ := hnil
    rw [expectedPackages_of_nodup hduplicates] at hchecked hcounts hunexpected
    rw [hduplicates] at hchecked
    have hnodup := duplicateNames_eq_nil_iff.1 hduplicates
    have hnames : (packages.map ResolvedPackage.name).Nodup := by
      refine List.Nodup.of_map pk.canonicalizeName ?_
      rw [List.map_map]
      exact hnodup
    have hpackages := mapM_flatten_eq_nil_iff.1 ⟨checked, hchecked, hnone⟩
    have hagrees := fun observed hobserved => wheelIssues_eq_nil_iff.1 (hwheels observed hobserved)
    refine ⟨hnodup, fun package hpackage => countIssues_eq_nil_iff.1 (hcounts package hpackage),
      fun observed hobserved => ?_, fun observed hobserved => (hagrees observed hobserved).1,
      fun observed hobserved => (hagrees observed hobserved).2, fun package hpackage => ?_,
      fun package hpackage => ?_⟩
    · refine (isUnexpected_eq_false_iff (hagrees observed hobserved).1).1 ?_
      simpa using hunexpected observed hobserved
    · exact ((packageIssues_eq_nil_iff pk hprofile hnames).1 (hpackages package hpackage)).1
    · exact ((packageIssues_eq_nil_iff pk hprofile hnames).1 (hpackages package hpackage)).2
  · intro h
    have hduplicates := duplicateNames_eq_nil_iff.2 h.names_nodup
    have hnames : (packages.map ResolvedPackage.name).Nodup := by
      refine List.Nodup.of_map pk.canonicalizeName ?_
      rw [List.map_map]
      exact h.names_nodup
    rw [expectedPackages_of_nodup hduplicates, hduplicates]
    obtain ⟨checked, hchecked, hnone⟩ := mapM_flatten_eq_nil_iff.2 fun package hpackage =>
      (packageIssues_eq_nil_iff pk hprofile hnames).2
        ⟨h.python package hpackage, h.requirements package hpackage⟩
    refine ⟨checked, hchecked, ?_⟩
    simp only [closureIssues, List.append_eq_nil_iff, List.map_eq_nil_iff, List.flatMap_eq_nil_iff,
      List.filter_eq_nil_iff, expectedPackages_of_nodup hduplicates]
    refine ⟨⟨⟨⟨hduplicates, fun observed hobserved => wheelIssues_eq_nil_iff.2
      ⟨h.agrees observed hobserved, h.compatible observed hobserved⟩⟩, fun package hpackage =>
      countIssues_eq_nil_iff.2 (h.one_wheel package hpackage)⟩, fun observed hobserved => ?_⟩, hnone⟩
    rw [Bool.not_eq_true, isUnexpected_eq_false_iff (h.agrees observed hobserved)]
    exact h.no_other observed hobserved

/-- On a target of the matrix a report is complete exactly when the closure holds and every marker of a
parsed requirement can be evaluated. -/
theorem validateClosure_complete_iff {resolved : ResolutionResult}
    (hprofile : markerEnvironment profile = some environment) :
    (∃ report, validateClosure pk profile resolved wheels = .ok report ∧ report.complete = true) ↔
      ClosureHolds pk profile (environment ++ [("extra", "")]) False resolved.packages wheels := by
  have hsorted : (sortedResolved resolved.packages).Perm resolved.packages :=
    List.perm_insertionSort _ _
  have hiff := closureIssues_eq_nil_iff pk (sortedResolved resolved.packages) wheels hprofile
  constructor
  · rintro ⟨report, h, hcomplete⟩
    obtain ⟨checked, hchecked, rfl⟩ := validateClosure_ok_iff.1 h
    have hnil := sortedIssues_eq_nil_iff.1 (List.isEmpty_iff.1 hcomplete)
    exact (hiff.1 ⟨checked, hchecked, hnil⟩).of_perm hsorted
  · intro h
    obtain ⟨checked, hchecked, hnil⟩ := hiff.2 (h.of_perm hsorted.symm)
    refine ⟨_, validateClosure_ok_iff.2 ⟨checked, hchecked, rfl⟩, ?_⟩
    rw [hnil]
    rfl

/-! ## A requirement with an undefined marker -/

/-- The library, with one requirement whose marker compares a text as a version. -/
def markerPackaging : MarkerPackaging where
  toWheelPackaging := { caseLibraries.toWheelPackaging with
    requirement := fun raw =>
      if raw = "b; os_name ~= 'posix'" then .ok ⟨"b", [], [], some "os_name ~= \"posix\"", none⟩
      else .error .invalidRequirement }
  evaluateMarker _ _ := none

/-- The package of the wheel, with some requirements. -/
def packageA (requiresDist : List String) : ResolvedPackage :=
  ⟨"a", versionOne, true, "", "a-1.0-py3-none-any.whl", requiresDist, none, []⟩

def resolvedSet (packages : List ResolvedPackage) : ResolutionResult :=
  ⟨"1", packages, [], [], [], none, 0, false⟩

/-- Where no requirement is left the closure of the package and its wheel holds. -/
theorem closureHolds_packageA {environment : Environment} {undefined : Prop}
    {requiresDist : List String}
    (h : ∀ raw ∈ requiresDist, RequirementHolds markerPackaging environment undefined
      [packageA requiresDist] raw) :
    ClosureHolds markerPackaging linuxTarget environment undefined [packageA requiresDist]
      [caseExpected.toDownloadedWheel] := by
  refine ⟨by simp, fun package hpackage => ?_, fun observed hobserved => ?_,
    fun observed hobserved => ?_, fun observed hobserved => ?_, fun package hpackage => ?_,
    fun package hpackage => ?_⟩
  · rw [List.mem_singleton.1 hpackage]
    change ([caseExpected.toDownloadedWheel].filter
      (parsesTo markerPackaging ("a", versionOne))).length = 1
    decide +kernel
  · have hparses : parsesTo markerPackaging ("a", versionOne) caseExpected.toDownloadedWheel = true := by
      decide +kernel
    rw [List.mem_singleton.1 hobserved]
    exact ⟨_, List.mem_singleton_self _, hparses⟩
  · rw [List.mem_singleton.1 hobserved]
    decide +kernel
  · rw [List.mem_singleton.1 hobserved]
    decide +kernel
  · rw [List.mem_singleton.1 hpackage]
    intro text htext
    cases htext
  · rw [List.mem_singleton.1 hpackage]
    exact h

theorem packageA_complete :
    ∃ report, validateClosure markerPackaging linuxTarget (resolvedSet [packageA []])
      [caseExpected.toDownloadedWheel] = .ok report ∧ report.complete = true :=
  (validateClosure_complete_iff rfl).2 (closureHolds_packageA (by simp))

/-- A marker that cannot be evaluated does not hold, but the closure is reported. -/
theorem undefined_marker_reported :
    ¬((∃ report, validateClosure markerPackaging linuxTarget
          (resolvedSet [packageA ["b; os_name ~= 'posix'"]]) [caseExpected.toDownloadedWheel] =
            .ok report ∧ report.complete = true) ↔
        ∃ environment, markerEnvironment linuxTarget = some environment ∧
          ClosureHolds markerPackaging linuxTarget (environment ++ [("extra", "")]) True
            [packageA ["b; os_name ~= 'posix'"]] [caseExpected.toDownloadedWheel]) := by
  intro h
  have hholds : ∀ environment, ClosureHolds markerPackaging linuxTarget environment True
      [packageA ["b; os_name ~= 'posix'"]] [caseExpected.toDownloadedWheel] := by
    intro environment
    refine closureHolds_packageA fun raw hraw => ?_
    rw [List.mem_singleton.1 hraw]
    refine ⟨_, rfl, fun _ _ => trivial, fun hmarker => ?_⟩
    exact absurd (hmarker nofun) (by simp [markerPackaging])
  obtain ⟨report, hreport, hcomplete⟩ := h.2 ⟨_, rfl, hholds _⟩
  have hincomplete : (validateClosure markerPackaging linuxTarget
      (resolvedSet [packageA ["b; os_name ~= 'posix'"]])
      [caseExpected.toDownloadedWheel]).toOption.any (fun report => report.complete) = false := by
    decide +kernel
  rw [hreport] at hincomplete
  rw [show (Except.ok report : Except ClosureError _).toOption = some report from rfl,
    Option.any_some, hcomplete] at hincomplete
  cases hincomplete

/-! ## Permutations -/

/-- The report is the same for permuted packages and wheels. -/
theorem validateClosure_perm {resolved resolved' : ResolutionResult}
    {wheels observed : List DownloadedWheel}
    (hpackages : resolved'.packages.Perm resolved.packages) (hwheels : observed.Perm wheels)
    (report : StaticValidationReport) :
    validateClosure pk profile resolved' observed = .ok report ↔
      validateClosure pk profile resolved wheels = .ok report :=
  ⟨validateClosure_of_perm hpackages hwheels, validateClosure_of_perm hpackages.symm hwheels.symm⟩

/-- Two packages of one name, of which the wheel is reported as unexpected, in both orders. -/
theorem packageA_twice_perm :
    validateClosure markerPackaging linuxTarget (resolvedSet [packageA [], packageA ["b"]])
        [caseExpected.toDownloadedWheel] =
      .ok (reportOf [duplicateIssue "a", unexpectedIssue caseExpected.toDownloadedWheel]) ∧
    validateClosure markerPackaging linuxTarget (resolvedSet [packageA ["b"], packageA []])
        [caseExpected.toDownloadedWheel] =
      .ok (reportOf [duplicateIssue "a", unexpectedIssue caseExpected.toDownloadedWheel]) := by
  have hone : validateClosure markerPackaging linuxTarget
      (resolvedSet [packageA [], packageA ["b"]]) [caseExpected.toDownloadedWheel] =
      .ok (reportOf [duplicateIssue "a", unexpectedIssue caseExpected.toDownloadedWheel]) := rfl
  exact ⟨hone, (validateClosure_perm (List.Perm.swap _ _ _) (List.Perm.refl _) _).2 hone⟩

end WheelForge.Validation
