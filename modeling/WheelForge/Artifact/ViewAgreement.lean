import WheelForge.Artifact.StagedFile
import WheelForge.Validation.RecordAgreement

/-!
# The views of an artifact

A built artifact describes its packages several times: by its members, its checksums, its requirement
file and its manifest. What the builder checks and how it generates them makes the views agree
(`build_views`).
-/

set_option autoImplicit false

namespace WheelForge.Artifact

open WheelForge.Python
open WheelForge.Resolver (ResolvedPackage)
open WheelForge.Target (TargetProfile linuxTarget)
open WheelForge.Validation (Bytes anyTag caseExpected caseLibraries caseSnapshot decodeUtf8 hexdigest
  validateClosure versionOne)

variable {lib : BuilderLibraries} {output : Publication} {context : ArtifactBuildContext}

/-! ## The context -/

/-- `_validate_pair`: the snapshot has the digest of the download. -/
theorem validatePair_ok {item : ValidatedWheel} {u : Unit}
    (h : validatePair lib item = .ok u) :
    ∃ snapshot, item.snapshot = some snapshot ∧ snapshot.sha256 = item.download.sha256.toList := by
  obtain ⟨snapshot, hsnapshot, h⟩ := bind_ok.1 h
  obtain ⟨⟨_, _, _⟩, -, h⟩ := bind_ok.1 h
  rw [orRaise_ok] at hsnapshot
  simp only [raiseIf_ok, not_or, not_not] at h
  exact ⟨snapshot, hsnapshot, h.2.2.2.2.2.2.2.1.symm⟩

/-- The canonical name of a wheel. -/
def wheelName (lib : BuilderLibraries) (item : ValidatedWheel) : String :=
  lib.canonicalizeName item.download.package

/-- The path of a wheel in the artifact. -/
def wheelPath (item : ValidatedWheel) : String := packagePath item.download.filename

/-- The wheels that the loop in `_validate_context` has accepted. -/
structure WheelsAccepted (lib : BuilderLibraries) (resolved : List (String × ResolvedPackage))
    (done : List ValidatedWheel) (seen : List String × List Text) : Prop where
  names_eq : seen.1 = done.map (wheelName lib)
  keys_eq : seen.2 = done.map fun item => lib.unicode.casefold (wheelPath item).toList
  names_nodup : (done.map (wheelName lib)).Nodup
  paths_nodup : (done.map wheelPath).Nodup
  resolved_name : ∀ item ∈ done, wheelName lib item ∈ resolved.map Prod.fst
  pair_ok : ∀ item ∈ done, validatePair lib item = .ok ()
  path_safe : ∀ item ∈ done, safeZipPath (wheelPath item) = true

theorem validateWheel_ok {resolved : List (String × ResolvedPackage)} {done : List ValidatedWheel}
    {seen seen' : List String × List Text} {item : ValidatedWheel}
    (hseen : WheelsAccepted lib resolved done seen)
    (h : validateWheel lib resolved seen item = .ok seen') :
    WheelsAccepted lib resolved (done ++ [item]) seen' := by
  obtain ⟨⟨⟩, hpair, h⟩ := bind_ok.1 h
  obtain ⟨_, hname, h⟩ := bind_ok.1 h
  obtain ⟨package, hpackage, h⟩ := bind_ok.1 h
  obtain ⟨_, -, h⟩ := bind_ok.1 h
  obtain ⟨_, -, h⟩ := bind_ok.1 h
  obtain ⟨_, hpath, h⟩ := bind_ok.1 h
  cases h
  rw [raiseIf_ok] at hname hpath
  rw [orRaise_ok] at hpackage
  have hnewName : wheelName lib item ∉ done.map (wheelName lib) := by
    rw [← hseen.names_eq]
    exact hname
  have hnewPath : wheelPath item ∉ done.map wheelPath := by
    intro hmem
    obtain ⟨other, hother, heq⟩ := List.mem_map.1 hmem
    apply hpath
    refine .inl ?_
    rw [hseen.keys_eq]
    exact List.mem_map.2 ⟨other, hother, by rw [heq]; rfl⟩
  refine ⟨by simp [hseen.names_eq, wheelName], by simp [hseen.keys_eq, wheelPath],
    by simpa using hseen.names_nodup.concat hnewName,
    by simpa using hseen.paths_nodup.concat hnewPath, fun other hother => ?_,
    fun other hother => ?_, fun other hother => ?_⟩
  · rcases List.mem_append.1 hother with hother | hother
    · exact hseen.resolved_name other hother
    · cases List.mem_singleton.1 hother
      exact List.mem_map.2 ⟨_, mem_of_lookup hpackage, rfl⟩
  · rcases List.mem_append.1 hother with hother | hother
    · exact hseen.pair_ok other hother
    · cases List.mem_singleton.1 hother
      exact hpair
  · rcases List.mem_append.1 hother with hother | hother
    · exact hseen.path_safe other hother
    · cases List.mem_singleton.1 hother
      rw [not_or, Bool.not_eq_false] at hpath
      exact hpath.2

/-- A context that passed the checks. -/
structure ContextChecked (lib : BuilderLibraries) (context : ArtifactBuildContext)
    (report : Build.StaticValidationReport) : Prop where
  resolved_nodup : (context.resolution.packages.map fun p => lib.canonicalizeName p.name).Nodup
  names_nodup : (context.wheels.map (wheelName lib)).Nodup
  paths_nodup : (context.wheels.map wheelPath).Nodup
  resolved_name : ∀ item ∈ context.wheels,
    wheelName lib item ∈ context.resolution.packages.map fun p => lib.canonicalizeName p.name
  pair_ok : ∀ item ∈ context.wheels, validatePair lib item = .ok ()
  path_safe : ∀ item ∈ context.wheels, safeZipPath (wheelPath item) = true
  report_eq : validateClosure lib.toMarkerPackaging context.target context.resolution
    (context.wheels.map fun item => item.download.toDownloadedWheel) = .ok report
  complete_names : report.complete = true → ∀ package ∈ context.resolution.packages,
    lib.canonicalizeName package.name ∈ context.wheels.map (wheelName lib)

theorem recomputed_ok {report : Build.StaticValidationReport}
    (h : recomputed lib context = .ok report) :
    validateClosure lib.toMarkerPackaging context.target context.resolution
      (context.wheels.map fun item => item.download.toDownloadedWheel) = .ok report := by
  simp only [recomputed] at h
  split at h
  case h_1 hclosure =>
    cases h
    exact hclosure
  all_goals cases h

theorem validateContext_ok {report : Build.StaticValidationReport}
    (h : validateContext lib context = .ok report) : ContextChecked lib context report := by
  obtain ⟨_, -, h⟩ := bind_ok.1 h
  obtain ⟨_, -, h⟩ := bind_ok.1 h
  obtain ⟨_, -, h⟩ := bind_ok.1 h
  obtain ⟨_, hresolved, h⟩ := bind_ok.1 h
  obtain ⟨seen, hseen, h⟩ := bind_ok.1 h
  obtain ⟨_, hcomplete, h⟩ := bind_ok.1 h
  obtain ⟨report', hreport, h⟩ := bind_ok.1 h
  obtain ⟨_, hsame, h⟩ := bind_ok.1 h
  cases h
  rw [raiseIf_ok] at hresolved hcomplete hsame
  have hfst : (resolvedByName lib context.resolution.packages).map Prod.fst =
      context.resolution.packages.map fun p => lib.canonicalizeName p.name := by
    simp [resolvedByName]
  have hstart : WheelsAccepted lib (resolvedByName lib context.resolution.packages) [] ([], []) :=
    ⟨rfl, rfl, by simp, by simp, by simp, by simp, by simp⟩
  have hwheels := foldlM_ok (WheelsAccepted lib (resolvedByName lib context.resolution.packages))
    (fun _ _ _ _ _ => validateWheel_ok) hstart hseen
  rw [List.nil_append] at hwheels
  refine ⟨by rw [← hfst]; exact not_not.1 hresolved, hwheels.names_nodup, hwheels.paths_nodup,
    fun item hitem => hfst ▸ hwheels.resolved_name item hitem, hwheels.pair_ok,
    hwheels.path_safe, recomputed_ok hreport, fun hreportComplete package hpackage => ?_⟩
  -- the context claims no more than the recomputed report
  have hclaimed : context.validation.complete = true := by
    rw [← not_not.1 (not_or.1 hsame).2]
    exact hreportComplete
  have hall := not_not.1 (not_and.1 hcomplete hclaimed)
  rw [List.all_eq_true] at hall
  have hmem := of_decide_eq_true (hall _ (List.mem_map_of_mem hpackage))
  rwa [hwheels.names_eq] at hmem

/-! ## Names of the members -/

/-- The names of the text entries. -/
def textNames (context : ArtifactBuildContext) : List String :=
  ["README.md", "requirements-original.txt", "requirements-resolved.txt", "version-comparison.csv",
    "build-report.html", "manifest.json", (scriptNames context).1, (scriptNames context).2]

/-- All names of an artifact. -/
def memberNames (context : ArtifactBuildContext) : List String :=
  textNames context ++ checksumsName :: context.wheels.map wheelPath

theorem mem_scriptNames (context : ArtifactBuildContext) :
    scriptNames context = ("install.sh", "verify.sh") ∨
      scriptNames context = ("install.bat", "verify.bat") := by
  by_cases hos : context.target.os = "LINUX"
  · exact .inl (if_pos hos)
  · exact .inr (if_neg hos)

theorem textNames_nodup (context : ArtifactBuildContext) :
    (textNames context ++ [checksumsName]).Nodup := by
  rcases mem_scriptNames context with h | h
  · rw [textNames, h]
    decide
  · rw [textNames, h]
    decide

/-- No text entry is in the directory of the packages. -/
theorem textNames_not_packaged {name filename : String}
    (h : name ∈ textNames context ++ [checksumsName]) : name ≠ packagePath filename := by
  rintro rfl
  have htake : (packagePath filename).toList.take 9 = "packages/".toList := by
    rw [packagePath, String.toList_append]
    exact List.take_left' rfl
  have hnone : ∀ name ∈ textNames context ++ [checksumsName],
      name.toList.take 9 ≠ "packages/".toList := by
    rcases mem_scriptNames context with hscripts | hscripts
    · rw [textNames, hscripts]
      decide
    · rw [textNames, hscripts]
      decide
  exact hnone _ h htake

theorem memberNames_nodup (hpaths : (context.wheels.map wheelPath).Nodup) :
    (memberNames context).Nodup := by
  have hsplit : memberNames context =
      (textNames context ++ [checksumsName]) ++ context.wheels.map wheelPath := by
    simp [memberNames]
  rw [hsplit, List.nodup_append]
  refine ⟨textNames_nodup context, hpaths, fun name hname path hpath => ?_⟩
  obtain ⟨item, -, rfl⟩ := List.mem_map.1 hpath
  exact textNames_not_packaged hname

/-- The text entries, with those that the agreement is about. -/
theorem textEntries_ok {intended : List IntendedPackage} {manifest : Manifest} {complete : Bool}
    {entries : List (String × Bytes)}
    (h : textEntries lib context intended manifest complete = .ok entries) :
    entries.map Prod.fst = textNames context ∧
      ("requirements-resolved.txt", text (intended.flatMap requirementEntry)) ∈ entries ∧
      ("manifest.json", text (dumps manifest.toJson ++ ['\n'])) ∈ entries := by
  obtain ⟨scriptEntries, hscripts, h⟩ := bind_ok.1 h
  obtain ⟨values, -, hscripts⟩ := bind_ok.1 hscripts
  cases hscripts
  cases h
  refine ⟨rfl, ?_, ?_⟩
  · exact List.mem_append_left _ (.tail _ (.tail _ (.head _)))
  · exact List.mem_append_left _ (.tail _ (.tail _ (.tail _ (.tail _ (.tail _ (.head _))))))

/-- The content of a wheel's snapshot has the digest of its download. -/
theorem snapshotContent_ok {item : ValidatedWheel} {content : Bytes}
    (hpair : validatePair lib item = .ok ()) (h : snapshotContent lib item = .ok content) :
    sha256Hex lib content = item.download.sha256 := by
  obtain ⟨snapshot, hsnapshot, hdigest⟩ := validatePair_ok hpair
  obtain ⟨snapshot', hsnapshot', h⟩ := bind_ok.1 h
  rw [orRaise_ok, hsnapshot] at hsnapshot'
  cases hsnapshot'
  cases hopened : snapshot.toWheelSnapshot.opened lib.toLibraries with
  | error e =>
      rw [hopened] at h
      cases h
  | ok bytes =>
      rw [hopened] at h
      cases h
      obtain ⟨_, -, hopened⟩ := bind_ok.1 hopened
      obtain ⟨_, hsha, hopened⟩ := bind_ok.1 hopened
      cases hopened
      rw [raiseIf_ok, not_not] at hsha
      rw [sha256Hex, hsha, hdigest, String.ofList_toList]

/-! ## The requirement file -/

/-- The line of a package in `requirements-resolved.txt`. -/
def requirementLine (item : IntendedPackage) : Text :=
  item.name.toList ++ "==".toList ++ item.version.toList ++ " --hash=sha256:".toList ++
    item.sha256.toList

/-- What the intended packages say of the resolved packages, in the order of their names. -/
structure Intends (lib : BuilderLibraries) (context : ArtifactBuildContext)
    (package : ResolvedPackage) (row : IntendedPackage) : Prop where
  name_eq : row.name = lib.canonicalizeName package.name
  version_eq : row.version = package.version.str
  packaged_iff : row.packaged = true ↔ ∃ item ∈ context.wheels, wheelName lib item = row.name
  sha256_eq : ∀ item ∈ context.wheels, wheelName lib item = row.name →
    row.sha256 = item.download.sha256

theorem intendedPackage_ok {package : ResolvedPackage} {row : IntendedPackage}
    (hnames : (context.wheels.map (wheelName lib)).Nodup)
    (h : intendedPackage lib (packagedByName lib context) package = .ok row) :
    Intends lib context package row := by
  have hkeys : ((packagedByName lib context).map Prod.fst).Nodup := by
    rw [packagedByName, List.map_map]
    exact hnames
  have hlookup : ∀ item ∈ context.wheels,
      (packagedByName lib context).lookup (wheelName lib item) = some item := fun item hitem =>
    lookup_of_mem hkeys (List.mem_map.2 ⟨item, hitem, rfl⟩)
  simp only [intendedPackage] at h
  split at h
  case h_1 wheel hwheel =>
    cases h
    obtain ⟨item, hitem, hpair⟩ := List.mem_map.1 (mem_of_lookup hwheel)
    obtain ⟨hname, rfl⟩ := Prod.mk.inj hpair
    refine ⟨rfl, rfl, ⟨fun _ => ⟨item, hitem, hname⟩, fun _ => rfl⟩, fun other hother hsame => ?_⟩
    have hother' := hlookup other hother
    rw [hsame, hwheel] at hother'
    cases hother'
    rfl
  case h_2 hnone =>
    obtain ⟨digest, -, h⟩ := bind_ok.1 h
    cases h
    have habsent : ∀ item ∈ context.wheels,
        wheelName lib item ≠ lib.canonicalizeName package.name := by
      intro item hitem hsame
      have hitem' := hlookup item hitem
      rw [hsame, hnone] at hitem'
      cases hitem'
    refine ⟨rfl, rfl, ⟨fun hpackaged => absurd hpackaged (by simp), ?_⟩, ?_⟩
    · rintro ⟨item, hitem, hsame⟩
      exact absurd hsame (habsent item hitem)
    · intro item hitem hsame
      exact absurd hsame (habsent item hitem)

theorem sortedPackages_perm (lib : BuilderLibraries) (context : ArtifactBuildContext) :
    (sortedPackages lib context).Perm context.resolution.packages :=
  List.perm_insertionSort _ _

/-- The lines of the requirement file, when no entry holds a line break of its own. -/
theorem requirement_lines {rows : List IntendedPackage}
    (h : ∀ row ∈ rows, OneLine (requirementLine row)) :
    (decodeUtf8 (text (rows.flatMap requirementEntry))).map splitLines =
      some (rows.map requirementLine) := by
  have hjoin : rows.flatMap requirementEntry = (rows.map requirementLine).flatMap (· ++ ['\n']) := by
    rw [List.flatMap_map]
    rfl
  rw [hjoin]
  refine decodeUtf8_lines fun line hline => ?_
  obtain ⟨row, hrow, rfl⟩ := List.mem_map.1 hline
  exact h row hrow

/-! ## The artifact -/

/-- The views of a built artifact agree. -/
structure ViewsAgree (lib : BuilderLibraries) (context : ArtifactBuildContext)
    (built : BuiltArtifact) : Prop where
  /-- The members are the text entries and one for each validated wheel. -/
  names_perm : (built.members.map ZipMember.filename).Perm (memberNames context)
  names_nodup : (memberNames context).Nodup
  /-- The member of a wheel has the digest of its download. -/
  packaged : ∀ item ∈ context.wheels, ∃ member ∈ built.members,
    member.filename = wheelPath item ∧ sha256Hex lib member.content = item.download.sha256
  checksums : ChecksumsListed lib built.members
  /-- One intended package for each resolved package, in the order of the canonical names. -/
  intended : List.Forall₂ (Intends lib context) (sortedPackages lib context)
    built.manifest.intendedPackages
  names_unique : (built.manifest.intendedPackages.map IntendedPackage.name).Nodup
  /-- The requirement file has an entry for each intended package; each of them is a line of its own
  when none holds a line break. -/
  requirements : ∃ member ∈ built.members, member.filename = "requirements-resolved.txt" ∧
    member.content =
      text (built.manifest.intendedPackages.flatMap requirementEntry) ∧
    ((∀ row ∈ built.manifest.intendedPackages, OneLine (requirementLine row)) →
      (decodeUtf8 member.content).map splitLines =
        some (built.manifest.intendedPackages.map requirementLine))
  manifest_member : ∃ member ∈ built.members, member.filename = "manifest.json" ∧
    member.content = text (dumps built.manifest.toJson ++ ['\n'])
  /-- The manifest is complete exactly when the closure is. -/
  complete_iff : built.manifest.complete = true ↔
    ∃ report, validateClosure lib.toMarkerPackaging context.target context.resolution
      (context.wheels.map fun item => item.download.toDownloadedWheel) = .ok report ∧
        report.complete = true
  complete_packaged : built.manifest.complete = true →
    ∀ row ∈ built.manifest.intendedPackages, row.packaged = true

/-- The publication returns the members that it wrote and verified. -/
theorem publishZip_ok {entries : List (String × Bytes)} {packages : List (String × ValidatedWheel)}
    {hashes : List (String × String)} {members : List ZipMember}
    (h : publishZip lib output entries packages hashes = .ok members) :
    writeZip lib entries packages = .ok members ∧ ChecksumsListed lib members := by
  iterate 3 obtain ⟨_, -, h⟩ := bind_ok.1 h
  obtain ⟨members', hmembers, h⟩ := bind_ok.1 h
  iterate 2 obtain ⟨_, -, h⟩ := bind_ok.1 h
  obtain ⟨_, hverified, h⟩ := bind_ok.1 h
  iterate 6 obtain ⟨_, -, h⟩ := bind_ok.1 h
  cases h
  exact ⟨hmembers, verifyZip_ok hverified⟩

/-- A complete closure has as many wheels as packages. -/
theorem wheels_length {report : Build.StaticValidationReport}
    (hchecked : ContextChecked lib context report) (hcomplete : report.complete = true) :
    context.wheels.length = context.resolution.packages.length := by
  have hperm : (context.wheels.map (wheelName lib)).Perm
      (context.resolution.packages.map fun p => lib.canonicalizeName p.name) := by
    apply (List.perm_ext_iff_of_nodup hchecked.names_nodup hchecked.resolved_nodup).2
    intro name
    constructor
    · intro hname
      obtain ⟨item, hitem, rfl⟩ := List.mem_map.1 hname
      exact hchecked.resolved_name item hitem
    · intro hname
      obtain ⟨package, hpackage, rfl⟩ := List.mem_map.1 hname
      exact hchecked.complete_names hcomplete package hpackage
  simpa using hperm.length_eq

theorem buildArtifact_ok {built : BuiltArtifact}
    (h : buildArtifact lib output context = .ok built) : ViewsAgree lib context built := by
  obtain ⟨_, -, h⟩ := bind_ok.1 h
  obtain ⟨report, hcontext, h⟩ := bind_ok.1 h
  obtain ⟨_, -, h⟩ := bind_ok.1 h
  obtain ⟨rows, hrows, h⟩ := bind_ok.1 h
  obtain ⟨entries, hentries, h⟩ := bind_ok.1 h
  obtain ⟨members, hmembers, h⟩ := bind_ok.1 h
  cases h
  have hchecked := validateContext_ok hcontext
  obtain ⟨hwritten, hchecksums⟩ := publishZip_ok hmembers
  obtain ⟨hnames, hmember⟩ := writeZip_ok hwritten
  obtain ⟨hentryNames, hrequirements, hmanifest⟩ := textEntries_ok hentries
  have hintended : List.Forall₂ (Intends lib context) (sortedPackages lib context) rows :=
    (mapM_ok hrows).imp fun _ _ => intendedPackage_ok hchecked.names_nodup
  have hlength : rows.length = context.resolution.packages.length := by
    rw [← hintended.length_eq, (sortedPackages_perm lib context).length_eq]
  -- the names under which the members are written
  generalize hlisting : (checksumsName, text (checksumsText _)) = listing at hwritten
  generalize hpackages : ((packagedByName lib context).map fun entry =>
    (packagePath entry.2.download.filename, entry.2)) = packages at hwritten
  have hlistingName : listing.1 = checksumsName := by rw [← hlisting]
  have hpaths : packages.map Prod.fst = context.wheels.map wheelPath := by
    rw [← hpackages, packagedByName, List.map_map, List.map_map]
    rfl
  have hentryNames' : (entries ++ [listing]).map Prod.fst = textNames context ++ [checksumsName] := by
    simp [hentryNames, hlistingName]
  have hexpected : (entries ++ [listing]).map Prod.fst ++ packages.map Prod.fst =
      memberNames context := by
    rw [hentryNames', hpaths]
    simp [memberNames]
  have hnodup := memberNames_nodup hchecked.paths_nodup
  have hentryNodup : ((entries ++ [listing]).map Prod.fst).Nodup := by
    rw [hentryNames']
    exact textNames_nodup context
  refine ⟨?_, hnodup, fun item hitem => ?_, hchecksums, hintended, ?_, ?_, ?_, ?_, ?_⟩
  · obtain ⟨hnames, -⟩ := writeZip_ok hwritten
    rw [hexpected] at hnames
    exact hnames ▸ sortedNames_perm hnodup
  · have hnew : wheelPath item ∉ (entries ++ [listing]).map Prod.fst := by
      rw [hentryNames']
      exact fun hmem => textNames_not_packaged hmem rfl
    have hpackage : (wheelPath item, item) ∈ packages := by
      rw [← hpackages]
      exact List.mem_map.2 ⟨_, List.mem_map_of_mem hitem, rfl⟩
    obtain ⟨member, hmember, hname, hcontent⟩ :=
      member_of_package hwritten hnew (hpaths ▸ hchecked.paths_nodup) hpackage
    exact ⟨member, hmember, hname, snapshotContent_ok (hchecked.pair_ok item hitem) hcontent⟩
  · have hrowNames : rows.map IntendedPackage.name =
        (sortedPackages lib context).map fun p => lib.canonicalizeName p.name := by
      apply List.forall₂_eq_eq_eq ▸
        List.forall₂_map_left_iff.2 (List.forall₂_map_right_iff.2 ?_)
      exact hintended.flip.imp fun row package hrow => hrow.name_eq
    change (rows.map IntendedPackage.name).Nodup
    rw [hrowNames]
    exact (((sortedPackages_perm lib context).map _).nodup_iff).2 hchecked.resolved_nodup
  · obtain ⟨member, hmember, hname, hcontent⟩ :=
      member_of_entry hwritten hentryNodup (List.mem_append_left _ hrequirements)
    refine ⟨member, hmember, hname, hcontent, fun hlines => ?_⟩
    rw [hcontent]
    exact requirement_lines hlines
  · exact member_of_entry hwritten hentryNodup (List.mem_append_left _ hmanifest)
  · change (report.complete && decide ((packagedByName lib context).length = rows.length)) = true ↔ _
    rw [Bool.and_eq_true, decide_eq_true_iff]
    constructor
    · rintro ⟨hcomplete, -⟩
      exact ⟨report, hchecked.report_eq, hcomplete⟩
    · rintro ⟨report', hreport', hcomplete⟩
      rw [hchecked.report_eq] at hreport'
      cases hreport'
      refine ⟨hcomplete, ?_⟩
      rw [packagedByName, List.length_map, hlength]
      exact wheels_length hchecked hcomplete
  · intro hcomplete row hrow
    have hreport : report.complete = true := (Bool.and_eq_true _ _ ▸ hcomplete).1
    obtain ⟨package, hpackage, hintends⟩ := exists_mem_of_forall₂ hintended.flip row hrow
    rw [hintends.packaged_iff, hintends.name_eq]
    have hresolved := (sortedPackages_perm lib context).mem_iff.1 hpackage
    obtain ⟨item, hitem, hname⟩ :=
      List.mem_map.1 (hchecked.complete_names hreport package hresolved)
    exact ⟨item, hitem, hname⟩

/-- Whenever a build succeeds, the views of the artifact agree. -/
theorem build_views {built : BuiltArtifact} (h : build lib output context = .ok built) :
    ViewsAgree lib context built := by
  obtain ⟨built', hbuilt, h⟩ := bind_ok.1 h
  obtain ⟨_, -, h⟩ := bind_ok.1 h
  cases h
  exact buildArtifact_ok hbuilt

/-! ## Success -/

theorem isSha256_sha256Hex {content : Bytes} (h : (lib.sha256 content).length = 32) :
    isSha256 (sha256Hex lib content) = true := by
  have hdigit : ∀ n < 16, (('0' ≤ Nat.digitChar n && Nat.digitChar n ≤ '9') ||
      ('a' ≤ Nat.digitChar n && Nat.digitChar n ≤ 'f')) = true := by decide
  rw [isSha256, sha256Hex, Bool.and_eq_true, decide_eq_true_iff, List.all_eq_true,
    String.toList_ofList, String.length_ofList]
  refine ⟨by simp [hexdigest, h], fun c hc => ?_⟩
  obtain ⟨byte, -, hc⟩ := List.mem_flatMap.1 hc
  have hbyte := byte.toNat_lt
  simp only [List.mem_cons, List.not_mem_nil, or_false] at hc
  rcases hc with rfl | rfl
  · exact hdigit _ (by omega)
  · exact hdigit _ (by omega)

theorem oneLine_of_isSafeWheel {filename : String} (h : isSafeWheel filename = true) :
    OneLine (packagePath filename).toList := by
  rw [packagePath, String.toList_append]
  refine OneLine.append (by decide) fun c hc => ?_
  have hchar : c.isAlphanum = true ∨ c ∈ "_.+-".toList := by
    rw [isSafeWheel] at h
    cases hname : filename.toList with
    | nil => simp [hname] at hc
    | cons first rest =>
        simp only [hname, Bool.and_eq_true, List.all_eq_true, Bool.or_eq_true,
          decide_eq_true_eq] at h hc
        rcases List.mem_cons.1 hc with rfl | hc
        · exact .inl h.1.1
        · exact h.2 c hc
  rw [Bool.eq_false_iff]
  intro hboundary
  rcases hchar with hchar | hchar
  · have hcode : c.val.toNat ∈ [0xa, 0xb, 0xc, 0xd, 0x1c, 0x1d, 0x1e, 0x85, 0x2028, 0x2029] :=
      of_decide_eq_true hboundary
    change ((decide (c.val ≥ 'A'.val ∧ c.val ≤ 'Z'.val) ||
      (decide (c.val ≥ 'a'.val) && decide (c.val ≤ 'z'.val))) ||
      (decide (c.val ≥ '0'.val) && decide (c.val ≤ '9'.val))) = true at hchar
    simp only [Bool.or_eq_true, Bool.and_eq_true, decide_eq_true_eq, UInt32.le_iff_toNat_le,
      ge_iff_le, List.mem_cons, List.not_mem_nil, or_false] at hchar hcode
    have h0 : '0'.val.toNat = 48 := rfl
    have h9 : '9'.val.toNat = 57 := rfl
    have hA : 'A'.val.toNat = 65 := rfl
    have hZ : 'Z'.val.toNat = 90 := rfl
    have ha : 'a'.val.toNat = 97 := rfl
    have hz : 'z'.val.toNat = 122 := rfl
    omega
  · have hnone : "_.+-".toList.all (fun c => !isLineBoundary c) = true := by decide
    have hplain := List.all_eq_true.1 hnone c hchar
    rw [hboundary] at hplain
    cases hplain

/-- A publication in which nothing raises. -/
def quietPublication : Publication :=
  ⟨.ok (), false, .ok (), .ok (), .ok (), .ok (), fun _ => .ok (), fun _ => .ok (), .ok (), .ok (),
    .ok ()⟩

/-- The names of the text entries can be listed. -/
theorem textNames_listable {name : String} (h : name ∈ textNames context) :
    safeZipPath name = true ∧ OneLine name.toList ∧ name ≠ checksumsName := by
  have hall : ∀ name ∈ textNames context,
      safeZipPath name = true ∧ OneLine name.toList ∧ name ≠ checksumsName := by
    rcases mem_scriptNames context with hscripts | hscripts
    · rw [textNames, hscripts]
      decide
    · rw [textNames, hscripts]
      decide
  exact hall name h

/-- The hashes of the text entries and of the wheels. -/
def expectedHashes (lib : BuilderLibraries) (context : ArtifactBuildContext)
    (entries : List (String × Bytes)) : List (String × String) :=
  entries.map (fun entry => (entry.1, sha256Hex lib entry.2)) ++
    context.wheels.map fun item => (wheelPath item, item.download.sha256)

theorem validatePair_listable {item : ValidatedWheel} {u : Unit}
    (h : validatePair lib item = .ok u) :
    isSha256 item.download.sha256 = true ∧ isSafeWheel item.download.filename = true := by
  obtain ⟨_, -, h⟩ := bind_ok.1 h
  obtain ⟨⟨_, _, _⟩, -, h⟩ := bind_ok.1 h
  simp only [raiseIf_ok, not_or, Bool.not_eq_false] at h
  exact ⟨h.2.2.2.2.2.2.2.2.2.1, h.2.2.2.2.2.2.2.2.2.2⟩

section Success

variable {report : Build.StaticValidationReport} {entries : List (String × Bytes)}
  {members : List ZipMember}

/-- The entries that are written, the checksum file behind the text entries. -/
def writtenEntries (lib : BuilderLibraries) (context : ArtifactBuildContext)
    (entries : List (String × Bytes)) : List (String × Bytes) :=
  entries ++ [(checksumsName, text (checksumsText (expectedHashes lib context entries)))]

/-- The wheels by their paths. -/
def writtenWheels (context : ArtifactBuildContext) : List (String × ValidatedWheel) :=
  context.wheels.map fun item => (wheelPath item, item)

theorem writtenWheels_fst : (writtenWheels context).map Prod.fst = context.wheels.map wheelPath := by
  rw [writtenWheels, List.map_map]
  rfl

variable (lib) in
theorem writtenEntries_fst (hnames : entries.map Prod.fst = textNames context) :
    (writtenEntries lib context entries).map Prod.fst = textNames context ++ [checksumsName] := by
  simp [writtenEntries, hnames]

/-- The members that are written have the expected hashes. -/
theorem hashesOf_written (hchecked : ContextChecked lib context report)
    (hdigest : ∀ content, (lib.sha256 content).length = 32)
    (hnames : entries.map Prod.fst = textNames context)
    (hwritten : writeZip lib (writtenEntries lib context entries) (writtenWheels context) =
      .ok members) :
    HashesOf lib members (expectedHashes lib context entries) := by
  have hentryNames := writtenEntries_fst lib hnames
  have hfst : (expectedHashes lib context entries).map Prod.fst =
      textNames context ++ context.wheels.map wheelPath := by
    rw [← hnames, expectedHashes, List.map_append, List.map_map, List.map_map]
    rfl
  have hnodup := memberNames_nodup hchecked.paths_nodup
  have hentryNodup : ((writtenEntries lib context entries).map Prod.fst).Nodup := by
    rw [hentryNames]
    exact textNames_nodup context
  have hmembers : ∀ name, name ∈ members.map ZipMember.filename ↔ name ∈ memberNames context := by
    intro name
    rw [(writeZip_ok hwritten).1, sortedNames, List.mem_insertionSort, List.mem_dedup, hentryNames,
      writtenWheels_fst]
    simp [memberNames]
  have hunique : (members.map ZipMember.filename).Nodup := by
    rw [(writeZip_ok hwritten).1]
    exact ((List.perm_insertionSort _ _).nodup_iff).2 (List.nodup_dedup _)
  have hsplit : ∀ hash ∈ expectedHashes lib context entries,
      (∃ entry ∈ entries, hash = (entry.1, sha256Hex lib entry.2)) ∨
        ∃ item ∈ context.wheels, hash = (wheelPath item, item.download.sha256) := by
    intro hash hhash
    rcases List.mem_append.1 hhash with hhash | hhash
    · obtain ⟨entry, hentry, rfl⟩ := List.mem_map.1 hhash
      exact .inl ⟨entry, hentry, rfl⟩
    · obtain ⟨item, hitem, rfl⟩ := List.mem_map.1 hhash
      exact .inr ⟨item, hitem, rfl⟩
  have hnewPath : ∀ item, wheelPath item ∉ textNames context ++ [checksumsName] := fun item hmem =>
    textNames_not_packaged hmem rfl
  refine ⟨?_, fun hash hhash => ?_, fun name => ?_, fun member hmember hash hhash hname => ?_⟩
  · rw [hfst]
    refine hnodup.sublist ?_
    exact List.Sublist.append (List.Sublist.refl _) (List.sublist_cons_self _ _)
  · rcases hsplit hash hhash with ⟨entry, hentry, rfl⟩ | ⟨item, hitem, rfl⟩
    · obtain ⟨hsafe, hline, -⟩ :=
        textNames_listable (hnames ▸ List.mem_map_of_mem (f := Prod.fst) hentry)
      exact ⟨isSha256_sha256Hex (hdigest _), hsafe, hline⟩
    · obtain ⟨hsha, hwheel⟩ := validatePair_listable (hchecked.pair_ok item hitem)
      exact ⟨hsha, hchecked.path_safe item hitem, oneLine_of_isSafeWheel hwheel⟩
  · rw [hfst, hmembers, memberNames]
    constructor
    · intro hname
      rcases List.mem_append.1 hname with hname | hname
      · exact ⟨(textNames_listable hname).2.2, List.mem_append_left _ hname⟩
      · refine ⟨?_, List.mem_append_right _ (.tail _ hname)⟩
        obtain ⟨item, -, rfl⟩ := List.mem_map.1 hname
        exact fun heq => textNames_not_packaged
          (List.mem_append_right (textNames context) (List.mem_singleton_self _)) heq.symm
    · rintro ⟨hne, hname⟩
      rcases List.mem_append.1 hname with hname | hname
      · exact List.mem_append_left _ hname
      · rcases List.mem_cons.1 hname with rfl | hname
        · exact absurd rfl hne
        · exact List.mem_append_right _ hname
  · rcases hsplit hash hhash with ⟨entry, hentry, rfl⟩ | ⟨item, hitem, rfl⟩
    · obtain ⟨other, hother, hothername, hcontent⟩ :=
        member_of_entry hwritten hentryNodup (List.mem_append_left _ hentry)
      rw [← List.inj_on_of_nodup_map hunique hother hmember (hothername.trans hname), hcontent]
    · obtain ⟨other, hother, hothername, hcontent⟩ := member_of_package hwritten
        (hentryNames ▸ hnewPath item) (writtenWheels_fst ▸ hchecked.paths_nodup)
        (List.mem_map.2 ⟨item, hitem, rfl⟩)
      rw [← List.inj_on_of_nodup_map hunique hother hmember (hothername.trans hname)]
      exact snapshotContent_ok (hchecked.pair_ok item hitem) hcontent

/-- Everything that is to be written can be, when the snapshots of the wheels open. -/
theorem exists_writeZip (hchecked : ContextChecked lib context report)
    (hnames : entries.map Prod.fst = textNames context)
    (hopened : ∀ item ∈ context.wheels, ∃ content, snapshotContent lib item = .ok content) :
    ∃ members, writeZip lib (writtenEntries lib context entries) (writtenWheels context) =
      .ok members := by
  refine exists_mapM_ok fun path hpath => ?_
  rw [sortedNames, List.mem_insertionSort, List.mem_dedup, writtenEntries_fst lib hnames,
    writtenWheels_fst] at hpath
  have hsafe : safeZipPath path = true := by
    rcases List.mem_append.1 hpath with hpath | hpath
    · rcases List.mem_append.1 hpath with hpath | hpath
      · exact (textNames_listable hpath).1
      · rw [List.mem_singleton.1 hpath]
        decide
    · obtain ⟨item, hitem, rfl⟩ := List.mem_map.1 hpath
      exact hchecked.path_safe item hitem
  have hmember : ∀ content, ∃ member, zipMember path content = .ok member := fun content =>
    ⟨_, bind_ok.2 ⟨(), raiseIf_ok.2 (by simp [hsafe]), rfl⟩⟩
  rw [writeMember]
  cases hentry : (writtenEntries lib context entries).lookup path with
  | some content => exact hmember content
  | none =>
      have hpackage : path ∈ (writtenWheels context).map Prod.fst := by
        rw [writtenWheels_fst]
        refine (List.mem_append.1 hpath).resolve_left fun hmem => ?_
        rw [← writtenEntries_fst lib hnames] at hmem
        obtain ⟨content, hcontent⟩ := lookup_isSome_of_mem hmem
        rw [hentry] at hcontent
        cases hcontent
      obtain ⟨item, hitem⟩ := lookup_isSome_of_mem hpackage
      obtain ⟨item', hitem', hpair⟩ := List.mem_map.1 (mem_of_lookup hitem)
      cases hpair
      obtain ⟨content, hcontent⟩ := hopened _ hitem'
      obtain ⟨member, hzip⟩ := hmember content
      exact ⟨member, bind_ok.2 ⟨_, orRaise_ok.2 hitem, bind_ok.2 ⟨content, hcontent, hzip⟩⟩⟩

/-- A build succeeds when the context passes its checks, the entries can be generated, the snapshots
open and neither the ZIP library nor the publication raises. -/
theorem build_succeeds {rows : List IntendedPackage}
    (hcontext : validateContext lib context = .ok report)
    (hrows : intendedPackages lib context (packagedByName lib context) = .ok rows)
    (hentries : ∀ complete manifest, (complete = true → report.complete = true) →
      ∃ entries, textEntries lib context rows manifest complete = .ok entries)
    (hopened : ∀ item ∈ context.wheels, ∃ content, snapshotContent lib item = .ok content)
    (hdigest : ∀ content, (lib.sha256 content).length = 32)
    (htest : ∀ members, lib.testzip members = none) :
    ∃ built, build lib quietPublication context = .ok built ∧
      built.manifest.intendedPackages = rows := by
  have hchecked := validateContext_ok hcontext
  let packaged := packagedByName lib context
  let complete := report.complete && decide (packaged.length = rows.length)
  let manifest := manifestOf context rows packaged complete
  obtain ⟨entries, htext⟩ := hentries complete manifest fun h => (Bool.and_eq_true _ _ ▸ h).1
  obtain ⟨hnames, -⟩ := textEntries_ok htext
  obtain ⟨members, hwritten⟩ := exists_writeZip hchecked hnames hopened
  have hpackages : ((packagedByName lib context).map fun entry =>
      (packagePath entry.2.download.filename, entry.2)) = writtenWheels context := by
    rw [packagedByName, List.map_map]
    rfl
  have hhashes : entries.map (fun entry => (entry.1, sha256Hex lib entry.2)) ++
      (writtenWheels context).map (fun entry => (entry.1, entry.2.download.sha256)) =
        expectedHashes lib context entries := by
    rw [expectedHashes, writtenWheels, List.map_map]
    rfl
  have hentryNodup : ((writtenEntries lib context entries).map Prod.fst).Nodup := by
    rw [writtenEntries_fst lib hnames]
    exact textNames_nodup context
  have hverified := verifyZip_written hwritten
    (lookup_of_mem hentryNodup (List.mem_append_right _ (List.mem_singleton_self _)))
    (hashesOf_written hchecked hdigest hnames hwritten) (htest members)
  have hpublished : publishZip lib quietPublication (writtenEntries lib context entries)
      (writtenWheels context) (expectedHashes lib context entries) = .ok members := by
    simp only [publishZip, quietPublication]
    refine bind_ok.2 ⟨(), rfl, bind_ok.2 ⟨(), rfl, bind_ok.2 ⟨(), rfl, bind_ok.2 ⟨members, hwritten,
      bind_ok.2 ⟨(), rfl, bind_ok.2 ⟨(), rfl, bind_ok.2 ⟨(), hverified, rfl⟩⟩⟩⟩⟩⟩⟩
  refine ⟨_, bind_ok.2 ⟨_, bind_ok.2 ⟨(), rfl, bind_ok.2 ⟨report, hcontext, bind_ok.2 ⟨(), rfl,
    bind_ok.2 ⟨rows, hrows, bind_ok.2 ⟨entries, htext, bind_ok.2 ⟨members, ?_, rfl⟩⟩⟩⟩⟩⟩,
    bind_ok.2 ⟨(), rfl, rfl⟩⟩, rfl⟩
  rw [hpackages, hhashes]
  exact hpublished

end Success

/-! ## A partial artifact with a line break in a name -/

/-- The bytes of a hexadecimal text. -/
def fromHex : Text → Bytes
  | high :: low :: rest =>
      UInt8.ofNat (16 * "0123456789abcdef".toList.idxOf high +
        "0123456789abcdef".toList.idxOf low) :: fromHex rest
  | _ => []

/-- The digests of the contents below, which have different lengths. -/
def partialDigests : List (Nat × String) :=
  [(7, "88d643de9378820219ed40f6e525b40c06dab6d681443fcce3a6a74d07590413"),
    (88, "7140166236afbf06c349cca7a4b65d37e94e927abaf53cb3a42498c192f28072"),
    (140, "4ae1e9d231a3d7b4bd78b22c9d0dc2966c719b18b1f2e7e45e86c9c4d1cf846b"),
    (174, "235e4fe5bfbfd8b2440d4dde2be3e61390948b9b990a354d5cacbb8f6897a37a"),
    (287, "ad779c9f6f0134e31f1d249610622b977087e12580a5438437af11a88a353fbd"),
    (528, "bf1ce06c7b875e62d0005f09f35c64a9c96200e53f4328edc92838882b1f9404"),
    (647, "8fe5fb1905cbdbefc1628a655e9c5efca28f5d3d8fb43346ad8e8fdcf22ba49c"),
    (888, "830a09bd67e2f8a4344b655b63d1a359bb1294d3599ffc6776d8ba6346571687")]

def partialLibraries : BuilderLibraries where
  toLibraries := { caseLibraries with
    sha256 := fun content =>
      ((partialDigests.lookup content.length).map fun digest => fromHex digest.toList).getD
        (List.replicate 32 0) }
  evaluateMarker _ _ := none
  testzip _ := none
  zipSha256 _ := "63c8566361191b968b6fb6e7222d04fff465dbfc5bcbf97571e5db7abd07c77e"

/-- A package whose wheel was downloaded and one, with a line break in its name, whose was not. -/
def partialPackages : List ResolvedPackage :=
  [⟨"a", versionOne, true, "", "a-1.0-py3-none-any.whl", [], none, []⟩,
    ⟨"b\nc", versionOne, false, "", "b-1.0-py3-none-any.whl", [], none,
      [⟨"sha256", "e3b0c44298fc1c149afbf4c8996fb92427ae41e4649b934ca495991b7852b855"⟩]⟩]

def partialContext : ArtifactBuildContext where
  buildId := "00000000-0000-0000-0000-000000000001"
  originalRequirements := "a==1.0\n"
  resolution := ⟨"1", partialPackages, [], [], [], none, 0, false⟩
  versionChanges := []
  target := linuxTarget
  validation := Validation.reportOf
    [⟨.wheelMissing, "b\nc", "no matching Wheel was downloaded", none⟩]
  wheels := [⟨caseExpected, ⟨"a", versionOne, [], none, [anyTag], 3, 263, by decide⟩,
    some ⟨caseSnapshot, "a-1.0-py3-none-any.whl"⟩⟩]

theorem partialLibraries_digest (content : Bytes) :
    (partialLibraries.sha256 content).length = 32 := by
  have hall : ∀ entry ∈ partialDigests, (fromHex entry.2.toList).length = 32 := by decide +kernel
  change (((partialDigests.lookup content.length).map fun digest => fromHex digest.toList).getD
    (List.replicate 32 0)).length = 32
  cases hdigest : partialDigests.lookup content.length with
  | none => rfl
  | some digest => exact hall _ (mem_of_lookup hdigest)

/-- The row of the first package, whose wheel is packaged, and that of the second. -/
def partialRows : List IntendedPackage :=
  [⟨"a", "1.0", caseExpected.sha256, true⟩,
    ⟨"b\nc", "1.0", "e3b0c44298fc1c149afbf4c8996fb92427ae41e4649b934ca495991b7852b855", false⟩]

theorem partialContext_built :
    ∃ built, build partialLibraries quietPublication partialContext = .ok built ∧
      built.manifest.intendedPackages = partialRows := by
  obtain ⟨report, hreport, hincomplete⟩ : ∃ report,
      validateContext partialLibraries partialContext = .ok report ∧ report.complete = false := by
    have hok : (validateContext partialLibraries partialContext).toOption.any
        (fun report => !report.complete) = true := by decide +kernel
    cases hresult : validateContext partialLibraries partialContext with
    | error e =>
        rw [hresult] at hok
        cases hok
    | ok report =>
        rw [hresult] at hok
        exact ⟨report, rfl, by simpa [Except.toOption] using hok⟩
  refine build_succeeds hreport (by decide +kernel) (fun complete manifest hcomplete => ?_) ?_
    partialLibraries_digest fun _ => rfl
  · cases complete with
    | false => exact ⟨_, rfl⟩
    | true => simp [hincomplete] at hcomplete
  · intro item hitem
    cases List.mem_singleton.1 hitem
    refine ⟨caseSnapshot.content, ?_⟩
    decide +kernel

theorem partialContext_views :
    ∃ built, build partialLibraries quietPublication partialContext = .ok built ∧
      ViewsAgree partialLibraries partialContext built := by
  obtain ⟨built, hbuilt, -⟩ := partialContext_built
  exact ⟨built, hbuilt, build_views hbuilt⟩

/-- The text of the requirement file of a built artifact. -/
def RequirementText (built : BuiltArtifact) (decoded : Text) : Prop :=
  ∃ member ∈ built.members, member.filename = "requirements-resolved.txt" ∧
    decodeUtf8 member.content = some decoded

/-- Two resolved packages with three lines, none of which begins with the name and the version of the
second package. -/
theorem partialContext_lines :
    ∃ built decoded, build partialLibraries quietPublication partialContext = .ok built ∧
      RequirementText built decoded ∧ (splitLines decoded).length = 3 ∧
      ∀ line ∈ splitLines decoded, ¬"b\nc==1.0".toList.isPrefixOf line := by
  obtain ⟨built, hbuilt, hrows⟩ := partialContext_built
  obtain ⟨built', hinner, houter⟩ := bind_ok.1 hbuilt
  obtain ⟨_, -, houter⟩ := bind_ok.1 houter
  cases houter
  obtain ⟨member, hmember, hname, hcontent, -⟩ := (buildArtifact_ok hinner).requirements
  have hlines : (splitLines (Parser.normalizeNewlines (partialRows.flatMap requirementEntry))).length
        = 3 ∧
      ∀ line ∈ splitLines (Parser.normalizeNewlines (partialRows.flatMap requirementEntry)),
        ¬"b\nc==1.0".toList.isPrefixOf line := by
    decide +kernel
  refine ⟨built, _, hbuilt, ⟨member, hmember, hname, ?_⟩, hlines⟩
  rw [hcontent, decodeUtf8_text, hrows]

end WheelForge.Artifact
