import Mathlib.Data.List.Sort
import WheelForge.Pep440.Order
import WheelForge.Python.Text
import WheelForge.Relational.FirstSeen
import WheelForge.Resolver.Models
import WheelForge.Resolver.ReportLimits

/-!
# Reading a pip report

`parse_pip_report` of a report that `_load_report` has read. The loop over `install` keeps one
package for each canonical name, at the place of its first entry; `installLoop_iff` reads it without
an order, and `pip_report_merges` is the result: the entries decide what is accepted, and their
order only in which order the packages are.
-/

set_option autoImplicit false

namespace WheelForge.Resolver

open WheelForge.Python
open WheelForge.Pep440 (Version VersionKey)
open WheelForge.Relational

def maxInstallEntries : Nat := 2000

def maxPackageNameChars : Nat := 512

def maxPackageVersionChars : Nat := 512

def maxArtifactUrlChars : Nat := 8192

def maxRequiresDist : Nat := 1000

def maxRequirementChars : Nat := 8192

def maxPackageRequiresPythonChars : Nat := 1024

def maxArchiveHashes : Nat := 16

def maxHashAlgorithmChars : Nat := 64

def maxHashDigestChars : Nat := 1024

/-- What `urlsplit` returns. -/
structure SplitUrl where
  scheme : String
  netloc : String
  path : String
  query : String
  fragment : String
  username : Option String
  password : Option String
  hostname : Option String

/-- What the reading takes from `packaging` and the standard library. -/
structure ReportLibrary where
  /-- The literal of a finite float. -/
  isFinite : Text → Bool
  /-- `canonicalize_name(name, validate=True)`; `none` is `InvalidName`. -/
  canonicalizeName : String → Option String
  /-- `Version(text)`; `none` is `InvalidVersion`. -/
  version : String → Option Version
  /-- `urlsplit(url)` with its `hostname` and `port`; `none` is `ValueError`. -/
  urlsplit : String → Option SplitUrl
  /-- `ipaddress.IPv6Address(text)` does not raise. -/
  ipv6Address : String → Bool
  /-- `ipaddress.IPv4Address(text)` does not raise. -/
  ipv4Address : String → Bool
  /-- `text.isdigit()`. -/
  isdigit : String → Bool
  /-- `text.encode("idna").decode("ascii")`; `none` is `UnicodeError`. -/
  idna : String → Option String
  /-- `text.lower()`. -/
  lower : String → String
  /-- `parse_wheel_filename(name)` does not raise. -/
  wheelFilename : String → Bool

/-! ## The fields of an entry -/

/-- `value.get(key)`; a missing key is `None`. -/
def field (value : JsonValue) (key : String) : JsonValue :=
  (value.get? (.ofString key)).getD .null

/-- The string of a validated report: it has no surrogates. -/
def reportText (value : Str) : Except PipReportError String :=
  match value.toText? with
  | some text => .ok (String.ofList text)
  | none => .error (.schema "pip report string is not valid UTF-8")

/-- `_bounded_string`. -/
def boundedString (value : JsonValue) (name : String) (limit : Nat) (required : Bool) :
    Except PipReportError String :=
  match value with
  | .string s =>
      if limit < s.length ∨ required = true ∧ s = [] then
        .error (.schema (name ++ " must be a bounded string"))
      else reportText s
  | _ => .error (.schema (name ++ " must be a bounded string"))

/-- `_canonical_name`. -/
def canonicalName (library : ReportLibrary) (value : JsonValue) : Except PipReportError String := do
  let name ← boundedString value "metadata.name" maxPackageNameChars true
  match library.canonicalizeName name with
  | some canonical =>
      if canonical = "" then .error (.schema "metadata.name must be valid") else .ok canonical
  | none => .error (.schema "metadata.name must be valid")

/-- `_version`. -/
def reportVersion (library : ReportLibrary) (value : JsonValue) : Except PipReportError Version := do
  let version ← boundedString value "metadata.version" maxPackageVersionChars true
  match library.version version with
  | some version => .ok version
  | none => .error (.schema "metadata.version must be valid")

/-- `unicodedata.category(character) == "Cc"`. -/
def isControl (c : Char) : Bool := c.toNat < 0x20 || (0x7f ≤ c.toNat && c.toNat < 0xa0)

/-- `_HOST_LABEL.fullmatch(label)`. -/
def hostLabel (label : Text) : Bool :=
  1 ≤ label.length && label.length ≤ 63 && label.all (fun c => c.isAlphanum || c = '-') &&
    label.head?.all Char.isAlphanum && label.getLast?.all Char.isAlphanum

/-- `_valid_https_host`. -/
def validHttpsHost (library : ReportLibrary) (hostname : Option String) : Bool :=
  match hostname with
  | none => false
  | some host =>
      if 253 < host.length then false
      else if ':' ∈ host.toList then library.ipv6Address host
      else if library.isdigit (String.ofList (host.toList.filter (· ≠ '.'))) then
        library.ipv4Address host
      else
        match library.idna host with
        | none => false
        | some encoded =>
            let ascii := encoded.toList.rdropWhile (· = '.')
            ascii ≠ [] && (ascii.splitOn '.').all hostLabel

/-- `_artifact_url`: the URL and the name of its wheel. -/
def artifactUrl (library : ReportLibrary) (value : JsonValue) :
    Except PipReportError (String × String) := do
  let url ← boundedString value "download_info.url" maxArtifactUrlChars true
  if url.toList ≠ strip url.toList ∨ url.toList.any (fun c => isSpace c || isControl c) then
    throw (.schema "download_info.url must be a safe URL")
  match library.urlsplit url with
  | none => throw (.schema "download_info.url must be well formed")
  | some parsed =>
      if parsed.scheme ∉ ["https", "file"] ∨ parsed.username ≠ none ∨ parsed.password ≠ none ∨
          parsed.fragment ≠ "" ∨ parsed.query ≠ "" ∨
          (parsed.scheme = "https" ∧ validHttpsHost library parsed.hostname = false) ∨
          (parsed.scheme = "file" ∧ parsed.netloc ∉ ["", "localhost"]) ∨
          (parsed.scheme = "file" ∧ ¬['/'] <+: parsed.path.toList) ∨
          ¬['.', 'w', 'h', 'l'] <:+ (library.lower parsed.path).toList then
        throw (.schema "download_info.url must reference a wheel")
      let filename := pathName parsed.path
      if library.wheelFilename filename then return (url, filename)
      else throw (.schema "wheel filename is invalid")

/-- `_string_tuple`. -/
def stringTuple (value : JsonValue) (name : String) : Except PipReportError (List String) :=
  match value with
  | .null => .ok []
  | .array items =>
      if maxRequiresDist < items.length then
        .error (.schema (name ++ " must be a list of strings"))
      else items.mapM fun item => boundedString item name maxRequirementChars false
  | _ => .error (.schema (name ++ " must be a list of strings"))

/-- `_optional_string`. -/
def optionalString (value : JsonValue) (name : String) : Except PipReportError (Option String) :=
  match value with
  | .null => .ok none
  | value => some <$> boundedString value name maxPackageRequiresPythonChars false

/-- One item of `archive_info.hashes`. -/
def archiveHash : Str × JsonValue → Except PipReportError ArchiveHash
  | (algorithm, .string digest) =>
      if algorithm = [] ∨ maxHashAlgorithmChars < algorithm.length ∨ digest = [] ∨
          maxHashDigestChars < digest.length then
        .error (.schema "archive hashes must be non-empty strings")
      else do
        let algorithm ← reportText algorithm
        let digest ← reportText digest
        return ⟨algorithm, digest⟩
  | _ => .error (.schema "archive hashes must be non-empty strings")

/-- The algorithm and the digest of `archive_info.hash`. -/
def legacyHash (legacy : Str) : Except PipReportError ArchiveHash := do
  if maxHashAlgorithmChars + maxHashDigestChars + 1 < legacy.length ∨
      CodePoint.ofChar '=' ∉ legacy then
    throw (.schema "archive_info.hash must be algorithm=digest")
  let algorithm := legacy.takeWhile (· ≠ CodePoint.ofChar '=')
  let digest := (legacy.dropWhile (· ≠ CodePoint.ofChar '=')).drop 1
  if algorithm = [] ∨ digest = [] then
    throw (.schema "archive_info.hash must be algorithm=digest")
  if maxHashAlgorithmChars < algorithm.length ∨ maxHashDigestChars < digest.length then
    throw (.schema "archive_info.hash exceeds its field limit")
  let algorithm ← reportText algorithm
  let digest ← reportText digest
  return ⟨algorithm, digest⟩

/-- `parsed.setdefault(algorithm, digest)`, where the digests have to agree. -/
def addLegacyHash (parsed : List ArchiveHash) (legacy : ArchiveHash) :
    Except PipReportError (List ArchiveHash) :=
  match parsed.find? (·.algorithm = legacy.algorithm) with
  | some existing =>
      if existing.value = legacy.value then .ok parsed
      else .error (.schema "archive hash values conflict")
  | none => .ok (parsed ++ [legacy])

/-- `_archive_hashes`. The items of a dict have distinct keys. -/
def archiveHashes (value : JsonValue) : Except PipReportError (List ArchiveHash) :=
  match value with
  | .null => .ok []
  | .object _ =>
      match (value.get? (.ofString "hashes")).getD (.object []) with
      | .object hashes => do
          if maxArchiveHashes < hashes.length then
            throw (.schema "archive_info.hashes must be an object")
          let parsed ← hashes.mapM archiveHash
          let parsed ←
            match field value "hash" with
            | .null => pure parsed
            | .string legacy => do
                let legacy ← legacyHash legacy
                addLegacyHash parsed legacy
            | _ => throw (.schema "archive_info.hash must be algorithm=digest")
          return parsed.insertionSort fun a b =>
            a.algorithm < b.algorithm ∨ a.algorithm = b.algorithm ∧ a.value ≤ b.value
      | _ => .error (.schema "archive_info.hashes must be an object")
  | _ => .error (.schema "archive_info must be an object")

/-- `_parse_install_entry`. -/
def parseInstallEntry (library : ReportLibrary) (entry : JsonValue) :
    Except PipReportError ResolvedPackage :=
  match entry with
  | .object _ =>
      match field entry "metadata", field entry "download_info", field entry "requested" with
      | .object metadata, .object downloadInfo, .bool requested => do
          let name ← canonicalName library (field (.object metadata) "name")
          let version ← reportVersion library (field (.object metadata) "version")
          let (url, filename) ← artifactUrl library (field (.object downloadInfo) "url")
          let requiresDist ← stringTuple (field (.object metadata) "requires_dist") "requires_dist"
          let requiresPython ←
            optionalString (field (.object metadata) "requires_python") "requires_python"
          let hashes ← archiveHashes (field (.object downloadInfo) "archive_info")
          return {
            name, version, requested, artifactUrl := url, wheelFilename := filename, requiresDist,
            requiresPython, archiveHashes := hashes }
      | _, _, _ => .error (.schema "install entry is missing required fields")
  | _ => .error (.schema "install entries must be objects")

/-! ## The loop -/

/-- `_same_observation`. -/
def sameObservation (left right : ResolvedPackage) : Bool :=
  left.version.Same right.version && left.artifactUrl = right.artifactUrl &&
    left.wheelFilename = right.wheelFilename && left.requiresDist = right.requiresDist &&
    left.requiresPython = right.requiresPython && left.archiveHashes = right.archiveHashes

/-- `packages` and `seen`, which holds indices of `packages`. -/
@[ext] structure InstallState where
  packages : List ResolvedPackage
  seen : List (String × Nat)
  seen_lt : ∀ item ∈ seen, item.2 < packages.length

def InstallState.start : InstallState := ⟨[], [], nofun⟩

/-- `packages[index] = package`. -/
def InstallState.put (state : InstallState) (index : Nat) (package : ResolvedPackage) :
    InstallState where
  packages := state.packages.set index package
  seen := state.seen
  seen_lt := by simpa using state.seen_lt

/-- `seen[package.name] = len(packages)` and `packages.append(package)`. -/
def InstallState.append (state : InstallState) (package : ResolvedPackage) : InstallState where
  packages := state.packages ++ [package]
  seen := state.seen ++ [(package.name, state.packages.length)]
  seen_lt := by
    intro item hitem
    rw [List.length_append, List.length_singleton]
    obtain hitem | hitem := List.mem_append.1 hitem
    · exact Nat.lt_succ_of_lt (state.seen_lt item hitem)
    · rw [List.mem_singleton.1 hitem]
      exact Nat.lt_succ_self _

/-- The loop body for a parsed entry. -/
def InstallState.observe (state : InstallState) (package : ResolvedPackage) :
    Except PipReportError InstallState :=
  match h : state.seen.find? (·.1 = package.name) with
  | some item =>
      let existing := state.packages.get ⟨item.2, state.seen_lt item (List.mem_of_find?_eq_some h)⟩
      if sameObservation existing package then
        .ok (state.put item.2
          { existing with requested := existing.requested || package.requested })
      else .error (.schema "duplicate package has conflicting observations")
  | none => .ok (state.append package)

/-- The loop over `install`. -/
def installLoop (library : ReportLibrary) :
    InstallState → List JsonValue → Except PipReportError InstallState
  | state, [] => .ok state
  | state, entry :: entries => do
      let package ← parseInstallEntry library entry
      let state ← state.observe package
      installLoop library state entries

/-- The mapping that `_load_report` returns. -/
structure Report where
  members : List (Str × JsonValue)
  nodup : (members.map Prod.fst).Nodup

/-- `version == "1"` or the integer 1; a bool is no integer here. -/
def versionOne : JsonValue → Bool
  | .string s => s = .ofString "1"
  | .int n => n = 1
  | _ => false

/-- `parse_pip_report` of a loaded report. -/
def parsePipReport (library : ReportLibrary) (report : Report) :
    Except PipReportError ResolutionResult := do
  if versionOne (field (.object report.members) "version") = false then
    throw (.version "unsupported pip report version")
  match field (.object report.members) "install" with
  | .array install =>
      if maxInstallEntries < install.length then
        throw (.schema "install must be a bounded list")
      validateJsonStructure library.isFinite (.object report.members)
      let state ← installLoop library .start install
      return {
        reportVersion := "1", packages := state.packages, attempts := [], rejections := []
        changes := [], source := none, rejectionsOmitted := 0, observationsTruncated := false }
  | _ => throw (.schema "install must be a bounded list")

/-! ## The packages of a list of observations -/

/-- What `_same_observation` compares: all but the name and `requested`, a version by its key. -/
def ResolvedPackage.observation (p : ResolvedPackage) :
    VersionKey × String × String × List String × Option String × List ArchiveHash :=
  (p.version.key, p.artifactUrl, p.wheelFilename, p.requiresDist, p.requiresPython, p.archiveHashes)

/-- What `==` compares. -/
def ResolvedPackage.compared (p : ResolvedPackage) :
    String × Bool × VersionKey × String × String × List String × Option String ×
      List ArchiveHash :=
  (p.name, p.requested, p.observation)

theorem sameObservation_iff {p q : ResolvedPackage} :
    sameObservation p q = true ↔ p.observation = q.observation := by
  unfold sameObservation ResolvedPackage.observation
  simp only [Bool.and_eq_true, decide_eq_true_eq, Prod.mk.injEq, and_assoc]
  exact Iff.rfl

/-- Packages of one name have one observation. -/
def Agree (packages : List ResolvedPackage) : Prop :=
  ∀ p ∈ packages, ∀ q ∈ packages, p.name = q.name → p.observation = q.observation

/-- Some package of the name was requested. -/
def requestedAny (packages : List ResolvedPackage) (name : String) : Bool :=
  packages.any fun q => q.name = name && q.requested

theorem requestedAny_concat (packages : List ResolvedPackage) (p : ResolvedPackage)
    (name : String) : requestedAny (packages ++ [p]) name =
      (requestedAny packages name || (p.name = name && p.requested)) := by
  simp [requestedAny]

theorem requestedAny_perm {packages others : List ResolvedPackage} (h : packages.Perm others)
    (name : String) : requestedAny packages name = requestedAny others name := by
  unfold requestedAny
  rw [Bool.eq_iff_iff, List.any_eq_true, List.any_eq_true]
  simp only [h.mem_iff]

/-- The first package of each name, requested if any of the name was. -/
def mergedPackages (packages : List ResolvedPackage) : List ResolvedPackage :=
  (firstSeen ResolvedPackage.name packages).map fun p =>
    { p with requested := requestedAny packages p.name }

theorem mergedPackages_names (packages : List ResolvedPackage) :
    (mergedPackages packages).map ResolvedPackage.name =
      (firstSeen ResolvedPackage.name packages).map ResolvedPackage.name := by
  simp [mergedPackages]

/-- A package of a new name comes last. -/
theorem mergedPackages_concat_new {packages : List ResolvedPackage} {p : ResolvedPackage}
    (h : p.name ∉ packages.map ResolvedPackage.name) :
    mergedPackages (packages ++ [p]) = mergedPackages packages ++ [p] := by
  unfold mergedPackages
  rw [firstSeen_concat, if_neg h, List.map_append, List.map_singleton]
  congr 1
  · refine List.map_congr_left fun q hq => ?_
    have hne : p.name ≠ q.name := by
      intro heq
      apply h
      rw [heq, ← mem_keys_firstSeen]
      exact List.mem_map_of_mem hq
    simp [requestedAny_concat, hne]
  · have hnone : requestedAny packages p.name = false := by
      unfold requestedAny
      rw [List.any_eq_false]
      intro q hq
      have hne : q.name ≠ p.name := fun heq => h (heq ▸ List.mem_map_of_mem hq)
      simp [hne]
    simp [requestedAny_concat, hnone]

/-- A package of a known name changes the package at the place of the first. -/
theorem mergedPackages_concat_known {packages : List ResolvedPackage} {p first : ResolvedPackage}
    {i : Nat} (hi : (firstSeen ResolvedPackage.name packages)[i]? = some first)
    (hname : first.name = p.name) :
    mergedPackages (packages ++ [p]) = (mergedPackages packages).set i
      { first with requested := requestedAny packages first.name || p.requested } := by
  have hmem : first ∈ firstSeen ResolvedPackage.name packages := List.mem_of_getElem? hi
  have hknown : p.name ∈ packages.map ResolvedPackage.name := by
    rw [← hname, ← mem_keys_firstSeen]
    exact List.mem_map_of_mem hmem
  unfold mergedPackages
  rw [firstSeen_concat, if_pos hknown]
  apply List.ext_getElem?
  intro j
  rw [List.getElem?_map, List.getElem?_set, List.length_map, List.getElem?_map]
  by_cases hj : i = j
  · subst hj
    rw [if_pos rfl, if_pos (List.getElem?_eq_some_iff.1 hi).1, hi]
    simp [requestedAny_concat, hname]
  · rw [if_neg hj]
    cases hq : (firstSeen ResolvedPackage.name packages)[j]? with
    | none => rfl
    | some q =>
        -- the name stands at one place only
        have hne : p.name ≠ q.name := by
          intro heq
          apply hj
          have hnodup := firstSeen_nodup ResolvedPackage.name packages
          have hlt : i <
              ((firstSeen ResolvedPackage.name packages).map ResolvedPackage.name).length := by
            rw [List.length_map]
            exact (List.getElem?_eq_some_iff.1 hi).1
          rw [← List.getElem?_inj hlt hnodup]
          simp [hi, hq, hname, heq]
        simp [requestedAny_concat, hne]

/-- A reading of a merged package that does not tell packages of one name apart is that of the
package which a search for the name finds. -/
theorem mergedPackages_read {β : Type} {f : ResolvedPackage → β} (packages : List ResolvedPackage) :
    ((mergedPackages packages).map f).map some =
      ((firstSeen ResolvedPackage.name packages).map ResolvedPackage.name).map fun name =>
        (packages.find? (·.name = name)).map fun p =>
          f { p with requested := requestedAny packages name } := by
  unfold mergedPackages
  rw [List.map_map, List.map_map, List.map_map]
  refine List.map_congr_left fun p hp => ?_
  simp only [Function.comp_apply, find?_of_mem_firstSeen ResolvedPackage.name hp, Option.map_some]

/-- The order of the packages decides only the order of the merged packages, for any reading `f` of
a package that does not tell packages of one name apart. -/
theorem mergedPackages_perm {β : Type} {f : ResolvedPackage → β}
    {packages others : List ResolvedPackage} (h : others.Perm packages)
    (hf : ∀ p ∈ packages, ∀ q ∈ packages, p.name = q.name → ∀ requested,
      f { p with requested } = f { q with requested }) :
    ((mergedPackages others).map f).Perm ((mergedPackages packages).map f) := by
  rw [← List.map_perm_map_iff (Option.some_injective β), mergedPackages_read, mergedPackages_read]
  have hread : ∀ name, ((others.find? (·.name = name)).map fun p =>
      f { p with requested := requestedAny others name }) =
      (packages.find? (·.name = name)).map fun p =>
        f { p with requested := requestedAny packages name } := by
    intro name
    rw [requestedAny_perm h]
    cases hp : packages.find? (·.name = name) with
    | none =>
        have hnone : others.find? (·.name = name) = none := by
          rw [List.find?_eq_none] at hp ⊢
          exact fun q hq => hp q (h.mem_iff.1 hq)
        rw [hnone]
    | some p =>
        cases hq : others.find? (·.name = name) with
        | none =>
            have hnot := List.find?_eq_none.1 hq p (h.mem_iff.2 (List.mem_of_find?_eq_some hp))
            exact absurd (List.find?_some hp) hnot
        | some q =>
            have hpname : p.name = name := by simpa using List.find?_some hp
            have hqname : q.name = name := by simpa using List.find?_some hq
            have heq := hf q (h.mem_iff.1 (List.mem_of_find?_eq_some hq)) p
              (List.mem_of_find?_eq_some hp) (hqname.trans hpname.symm) (requestedAny packages name)
            rw [Option.map_some, Option.map_some, heq]
  simp only [hread]
  exact (firstSeen_perm ResolvedPackage.name h).map _

/-! ## The loop in no order -/

/-- The state of the loop after the packages. -/
def InstallState.after (packages : List ResolvedPackage) : InstallState where
  packages := mergedPackages packages
  seen := ((firstSeen ResolvedPackage.name packages).map ResolvedPackage.name).zipIdx
  seen_lt := by
    intro item hitem
    rw [List.mem_zipIdx_iff_getElem?, ← mergedPackages_names, List.getElem?_eq_some_iff] at hitem
    simpa using hitem.1

theorem InstallState.after_nil : InstallState.after [] = .start := rfl

theorem Agree.initial {packages rest : List ResolvedPackage} (h : Agree (packages ++ rest)) :
    Agree packages :=
  fun p hp q hq => h p (List.mem_append_left _ hp) q (List.mem_append_left _ hq)

theorem Agree.perm {packages others : List ResolvedPackage} (h : Agree packages)
    (hperm : others.Perm packages) : Agree others :=
  fun p hp q hq => h p (hperm.mem_iff.1 hp) q (hperm.mem_iff.1 hq)

/-- One package more. -/
theorem agree_concat {packages : List ResolvedPackage} {p : ResolvedPackage}
    (h : Agree packages) : Agree (packages ++ [p]) ↔
      ∀ q ∈ packages, q.name = p.name → q.observation = p.observation := by
  constructor
  · intro hagree q hq hname
    exact hagree q (List.mem_append_left _ hq) p (by simp) hname
  · intro hp q hq r hr hname
    rw [List.mem_append, List.mem_singleton] at hq hr
    rcases hq with hq | rfl <;> rcases hr with hr | rfl
    · exact h q hq r hr hname
    · exact hp q hq hname
    · exact (hp r hr hname.symm).symm
    · rfl

/-- A package of a new name is added. -/
theorem InstallState.append_after {packages : List ResolvedPackage} {p : ResolvedPackage}
    (h : p.name ∉ packages.map ResolvedPackage.name) :
    (after packages).append p = after (packages ++ [p]) := by
  apply InstallState.ext
  · exact (mergedPackages_concat_new h).symm
  · have hlength : (after packages).packages.length =
        ((firstSeen ResolvedPackage.name packages).map ResolvedPackage.name).length := by
      rw [← mergedPackages_names, List.length_map]
      rfl
    unfold after append
    dsimp only
    rw [firstSeen_concat, if_neg h, List.map_append, List.zipIdx_append, Nat.zero_add, ← hlength]
    rfl

/-- A package of a known name is put at the place of the first. -/
theorem InstallState.put_after {packages : List ResolvedPackage} {p first : ResolvedPackage}
    {i : Nat} (hi : (firstSeen ResolvedPackage.name packages)[i]? = some first)
    (hname : first.name = p.name) :
    (after packages).put i
        { first with requested := requestedAny packages first.name || p.requested } =
      after (packages ++ [p]) := by
  apply InstallState.ext
  · exact (mergedPackages_concat_known hi hname).symm
  · have hknown : p.name ∈ packages.map ResolvedPackage.name := by
      rw [← hname, ← mem_keys_firstSeen]
      exact List.mem_map_of_mem (List.mem_of_getElem? hi)
    unfold after put
    dsimp only
    rw [firstSeen_concat, if_pos hknown]

/-- A step of the loop accepts a package that agrees with those before it. -/
theorem InstallState.observe_after {packages : List ResolvedPackage} {next : InstallState}
    (hagree : Agree packages) (p : ResolvedPackage) :
    (after packages).observe p = .ok next ↔
      Agree (packages ++ [p]) ∧ next = after (packages ++ [p]) := by
  unfold InstallState.observe
  split
  · next item hfind =>
      -- the name is known: `item` is the place of its first package
      have hplace := List.mem_of_find?_eq_some hfind
      have hitem : item.1 = p.name := by simpa using List.find?_some hfind
      unfold after at hplace
      rw [List.mem_zipIdx_iff_getElem?, List.getElem?_map, Option.map_eq_some_iff] at hplace
      obtain ⟨first, hfirst, hname⟩ := hplace
      have hmem : first ∈ packages :=
        (firstSeen_sublist ResolvedPackage.name packages).subset (List.mem_of_getElem? hfirst)
      have hexisting : (after packages).packages.get
          ⟨item.2, (after packages).seen_lt item (List.mem_of_find?_eq_some hfind)⟩ =
          { first with requested := requestedAny packages first.name } := by
        have hget : (after packages).packages[item.2]? =
            some { first with requested := requestedAny packages first.name } := by
          unfold after mergedPackages
          rw [List.getElem?_map, hfirst, Option.map_some]
        exact (List.getElem?_eq_some_iff.1 hget).2
      dsimp only
      rw [hexisting, put_after hfirst (hname.trans hitem)]
      split
      · next hsame =>
          rw [sameObservation_iff] at hsame
          have hlast : Agree (packages ++ [p]) := by
            rw [agree_concat hagree]
            intro q hq hqname
            exact (hagree q hq first hmem (by rw [hqname, hname, hitem])).trans hsame
          rw [Except.ok.injEq, eq_comm]
          exact (and_iff_right hlast).symm
      · next hdiffer =>
          rw [sameObservation_iff] at hdiffer
          refine iff_of_false nofun fun hlast => hdiffer ?_
          exact hlast.1 first (List.mem_append_left _ hmem) p (by simp) (hname.trans hitem)
  · next hfind =>
      have hnew : p.name ∉ packages.map ResolvedPackage.name := by
        rw [← mem_keys_firstSeen]
        intro hmem
        obtain ⟨i, hi⟩ := List.getElem?_of_mem hmem
        have hitem : (p.name, i) ∈ (after packages).seen := List.mem_zipIdx_iff_getElem?.2 hi
        have hnone := List.find?_eq_none.1 hfind _ hitem
        simp at hnone
      have hlast : Agree (packages ++ [p]) := by
        rw [agree_concat hagree]
        intro q hq hqname
        exact absurd (hqname ▸ List.mem_map_of_mem hq) hnew
      rw [append_after hnew, Except.ok.injEq, eq_comm]
      exact (and_iff_right hlast).symm

/-- The packages of the entries that are valid. -/
def observedPackages (library : ReportLibrary) (entries : List JsonValue) :
    List ResolvedPackage :=
  entries.filterMap fun entry => (parseInstallEntry library entry).toOption

/-- `_parse_install_entry` accepts the entry. -/
def EntryValid (library : ReportLibrary) (entry : JsonValue) : Prop :=
  ∃ package, parseInstallEntry library entry = .ok package

/-- The loop accepts valid entries that agree, and its state is then that of their packages. -/
theorem installLoop_iff {library : ReportLibrary} {packages : List ResolvedPackage}
    {final : InstallState} {entries : List JsonValue} (hagree : Agree packages) :
    installLoop library (.after packages) entries = .ok final ↔
      (∀ entry ∈ entries, EntryValid library entry) ∧
        Agree (packages ++ observedPackages library entries) ∧
        final = .after (packages ++ observedPackages library entries) := by
  induction entries generalizing packages with
  | nil =>
      rw [observedPackages, List.filterMap_nil, List.append_nil, installLoop, Except.ok.injEq,
        eq_comm]
      simp [hagree]
  | cons entry entries ih =>
      rw [installLoop, List.forall_mem_cons]
      cases hentry : parseInstallEntry library entry with
      | error error =>
          refine iff_of_false nofun ?_
          rintro ⟨⟨⟨package, hpackage⟩, -⟩, -⟩
          rw [hentry] at hpackage
          cases hpackage
      | ok package =>
          have hobserved : packages ++ observedPackages library (entry :: entries) =
              packages ++ [package] ++ observedPackages library entries := by
            unfold observedPackages
            rw [List.filterMap_cons, hentry, List.append_assoc]
            rfl
          have hvalid : EntryValid library entry := ⟨package, hentry⟩
          rw [hobserved]
          simp only [hvalid, true_and, bind, Except.bind]
          cases hstep : (InstallState.after packages).observe package with
          | error error =>
              refine iff_of_false nofun ?_
              rintro ⟨-, hlast, -⟩
              -- the packages up to this one agree, so the step would have accepted it
              have haccepted := (InstallState.observe_after hagree package).2
                ⟨hlast.initial, rfl⟩
              rw [hstep] at haccepted
              cases haccepted
          | ok next =>
              obtain ⟨hnext, rfl⟩ := (InstallState.observe_after hagree package).1 hstep
              exact ih hnext

/-! ## Reports -/

/-- The report with another list of entries. -/
def Report.withInstall (report : Report) (entries : List JsonValue) : Report where
  members := report.members.map fun member =>
    if member.1 = .ofString "install" then (member.1, .array entries) else member
  nodup := by
    have hkeys : (report.members.map fun member =>
        if member.1 = .ofString "install" then (member.1, .array entries) else member).map
          Prod.fst = report.members.map Prod.fst := by
      rw [List.map_map]
      refine List.map_congr_left fun member _ => ?_
      rw [Function.comp_apply]
      split <;> rfl
    rw [hkeys]
    exact report.nodup

/-- A report of version 1 with these entries, within the structural limits. -/
structure WithinLimits (library : ReportLibrary) (report : Report) (entries : List JsonValue) :
    Prop where
  version : versionOne (field (.object report.members) "version") = true
  install : field (.object report.members) "install" = .array entries
  bounded : entries.length ≤ maxInstallEntries
  structural : validateJsonStructure library.isFinite (.object report.members) = .ok ()

/-- What is returned are the merged packages of the entries. -/
theorem WithinLimits.parse_iff {library : ReportLibrary} {report : Report}
    {entries : List JsonValue} (h : WithinLimits library report entries)
    {result : ResolutionResult} : parsePipReport library report = .ok result ↔
      (∀ entry ∈ entries, EntryValid library entry) ∧ Agree (observedPackages library entries) ∧
        result = {
          reportVersion := "1", packages := mergedPackages (observedPackages library entries)
          attempts := [], rejections := [], changes := [], source := none, rejectionsOmitted := 0
          observationsTruncated := false } := by
  have hloop : ∀ final, installLoop library .start entries = .ok final ↔
      (∀ entry ∈ entries, EntryValid library entry) ∧ Agree (observedPackages library entries) ∧
        final = .after (observedPackages library entries) := by
    intro final
    rw [← InstallState.after_nil]
    exact installLoop_iff (by nofun)
  unfold parsePipReport
  rw [h.version, h.install]
  simp only [Bool.true_eq_false, if_false, if_neg (Nat.not_lt.2 h.bounded), h.structural, bind,
    Except.bind, pure, Except.pure]
  cases hrun : installLoop library .start entries with
  | error error =>
      refine iff_of_false nofun ?_
      rintro ⟨hvalid, hagree, -⟩
      have hok := (hloop _).2 ⟨hvalid, hagree, rfl⟩
      rw [hrun] at hok
      cases hok
  | ok final =>
      obtain ⟨hvalid, hagree, rfl⟩ := (hloop final).1 hrun
      rw [Except.ok.injEq, eq_comm]
      exact ⟨fun h => ⟨hvalid, hagree, h⟩, fun h => h.2.2⟩

theorem WithinLimits.accepts_iff {library : ReportLibrary} {report : Report}
    {entries : List JsonValue} (h : WithinLimits library report entries) :
    (∃ result, parsePipReport library report = .ok result) ↔
      (∀ entry ∈ entries, EntryValid library entry) ∧
        Agree (observedPackages library entries) := by
  constructor
  · rintro ⟨result, hresult⟩
    obtain ⟨hvalid, hagree, -⟩ := h.parse_iff.1 hresult
    exact ⟨hvalid, hagree⟩
  · rintro ⟨hvalid, hagree⟩
    exact ⟨_, h.parse_iff.2 ⟨hvalid, hagree, rfl⟩⟩

theorem Report.withInstall_get? (report : Report) (entries : List JsonValue) (key : Str) :
    (JsonValue.object (report.withInstall entries).members).get? key =
      ((JsonValue.object report.members).get? key).map fun value =>
        if key = .ofString "install" then .array entries else value := by
  simp only [Report.withInstall, JsonValue.get?, ← List.map_reverse, List.find?_map, Option.map_map]
  have hkeys : ((fun member : Str × JsonValue => decide (member.1 = key)) ∘
      fun member : Str × JsonValue => if member.1 = .ofString "install" then
        (member.1, JsonValue.array entries) else member) = fun member => decide (member.1 = key) := by
    funext member
    rw [Function.comp_apply]
    split <;> rfl
  rw [hkeys]
  cases hfind : report.members.reverse.find? fun member => decide (member.1 = key) with
  | none => rfl
  | some member =>
      have hkey : member.1 = key := by simpa using List.find?_some hfind
      simp only [Option.map_some, Function.comp_apply, hkey]
      split <;> rfl

theorem Report.withInstall_field (report : Report) (entries : List JsonValue) :
    field (.object (report.withInstall entries).members) "version" =
      field (.object report.members) "version" := by
  have hne : Str.ofString "version" ≠ .ofString "install" := by decide
  unfold field
  rw [withInstall_get?]
  simp only [hne, if_false, Option.map_id']

/-- The same entries in another order are within the limits. -/
theorem WithinLimits.perm {library : ReportLibrary} {report : Report}
    {entries entries' : List JsonValue} (h : WithinLimits library report entries)
    (hperm : entries'.Perm entries) :
    WithinLimits library (report.withInstall entries') entries' where
  version := by rw [Report.withInstall_field, h.version]
  install := by
    have hinstall := h.install
    unfold field at hinstall ⊢
    rw [Report.withInstall_get?]
    cases hget : (JsonValue.object report.members).get? (.ofString "install") with
    | none =>
        rw [hget] at hinstall
        cases hinstall
    | some value => simp
  bounded := hperm.length_eq ▸ h.bounded
  structural := by
    have hvalues : ∀ member ∈ report.members, member.1 = .ofString "install" →
        member.2 = .array entries := by
      intro member hmember hkey
      have hinstall := h.install
      unfold field JsonValue.get? at hinstall
      dsimp only at hinstall
      cases hfind : report.members.reverse.find? (·.1 = .ofString "install") with
      | none =>
          have hnone := List.find?_eq_none.1 hfind member (List.mem_reverse.2 hmember)
          simp [hkey] at hnone
      | some found =>
          have hfound : found.1 = .ofString "install" := by simpa using List.find?_some hfind
          have hmem := List.mem_reverse.1 (List.mem_of_find?_eq_some hfind)
          rw [List.inj_on_of_nodup_map report.nodup hmember hmem (hkey.trans hfound.symm)]
          rw [hfind] at hinstall
          exact hinstall
    have hcosts := validateJsonStructure_iff.1 h.structural
    refine validateJsonStructure_iff.2 (hcosts.perm (object_costs_perm ?_ ?_).symm)
    · intro member
      split <;> rfl
    · intro member hmember
      split
      · next hkey =>
          rw [hvalues member hmember hkey]
          exact array_costs_perm hperm
      · exact List.Perm.refl _

/-- A report that is accepted is within the limits. -/
theorem exists_withinLimits {library : ReportLibrary} {report : Report} {result : ResolutionResult}
    (h : parsePipReport library report = .ok result) :
    ∃ entries, WithinLimits library report entries := by
  -- the checks are split in the order in which they are made
  simp only [parsePipReport, bind, Except.bind, pure, Except.pure, throw, throwThe,
    MonadExceptOf.throw] at h
  cases hversion : versionOne (field (.object report.members) "version") with
  | false =>
      rw [if_pos hversion] at h
      cases h
  | true =>
      rw [if_neg (by simp [hversion])] at h
      split at h
      · next install hinstall =>
          by_cases hbounded : maxInstallEntries < install.length
          · rw [if_pos hbounded] at h
            cases h
          · rw [if_neg hbounded] at h
            split at h
            · cases h
            · next hstructural =>
                exact ⟨install, hversion, hinstall, Nat.not_lt.1 hbounded, hstructural⟩
      · cases h

/-- A parsed report has one package of each name. -/
theorem parsePipReport_nodup {library : ReportLibrary} {report : Report} {result : ResolutionResult}
    (h : parsePipReport library report = .ok result) :
    (result.packages.map ResolvedPackage.name).Nodup := by
  obtain ⟨entries, hlimits⟩ := exists_withinLimits h
  obtain ⟨-, -, rfl⟩ := hlimits.parse_iff.1 h
  dsimp only
  rw [mergedPackages_names]
  exact firstSeen_nodup _ _

/-- A report within the limits is accepted if and only if each entry is valid and entries of one
name agree. The result has the names in the order of their first entries, each with the fields of
the first entry and requested if any entry of the name is. Entries in another order give equal
packages in another order; two packages are equal though their versions are spelled differently, and
if entries of one name spell the version alike, the packages are the same. -/
theorem pip_report_merges {library : ReportLibrary} {report : Report} {entries : List JsonValue}
    (h : WithinLimits library report entries) :
    ((∃ result, parsePipReport library report = .ok result) ↔
      (∀ entry ∈ entries, EntryValid library entry) ∧
        Agree (observedPackages library entries)) ∧
    (∀ result, parsePipReport library report = .ok result →
      result.packages.map ResolvedPackage.name =
        firstSeen id ((observedPackages library entries).map ResolvedPackage.name) ∧
      (result.packages.map ResolvedPackage.name).Nodup ∧
      ∀ p ∈ result.packages,
        (p.requested = true ↔
          ∃ q ∈ observedPackages library entries, q.name = p.name ∧ q.requested = true) ∧
        ∃ first, (observedPackages library entries).find? (·.name = p.name) = some first ∧
          p = { first with requested := p.requested }) ∧
    ∀ entries', entries'.Perm entries →
      ((∃ result, parsePipReport library (report.withInstall entries') = .ok result) ↔
        ∃ result, parsePipReport library report = .ok result) ∧
      ∀ result result', parsePipReport library report = .ok result →
        parsePipReport library (report.withInstall entries') = .ok result' →
        result' = { result with packages := result'.packages } ∧
        (result'.packages.map ResolvedPackage.compared).Perm
          (result.packages.map ResolvedPackage.compared) ∧
        ((∀ p ∈ observedPackages library entries, ∀ q ∈ observedPackages library entries,
            p.name = q.name → p.version = q.version) →
          result'.packages.Perm result.packages) := by
  refine ⟨?_, ?_, ?_⟩
  · exact h.accepts_iff
  · intro result hresult
    have hnodup := parsePipReport_nodup hresult
    obtain ⟨-, -, rfl⟩ := h.parse_iff.1 hresult
    dsimp only
    refine ⟨?_, hnodup, ?_⟩
    · rw [mergedPackages_names, map_firstSeen]
    · intro p hp
      obtain ⟨first, hfirst, rfl⟩ := List.mem_map.1 hp
      refine ⟨?_, first, find?_of_mem_firstSeen ResolvedPackage.name hfirst, rfl⟩
      simp [requestedAny]
  · intro entries' hperm
    have hobserved : (observedPackages library entries').Perm (observedPackages library entries) :=
      hperm.filterMap _
    have h' := h.perm hperm
    constructor
    · rw [h.accepts_iff, h'.accepts_iff]
      simp only [hperm.mem_iff]
      exact and_congr_right fun _ =>
        ⟨fun hagree => hagree.perm hobserved.symm, fun hagree => hagree.perm hobserved⟩
    · intro result result' hresult hresult'
      obtain ⟨-, hagree, rfl⟩ := h.parse_iff.1 hresult
      obtain ⟨-, -, rfl⟩ := h'.parse_iff.1 hresult'
      refine ⟨rfl, ?_, ?_⟩
      · refine mergedPackages_perm hobserved fun p hp q hq hname requested => ?_
        have hsame := hagree p hp q hq hname
        simp only [ResolvedPackage.compared, ResolvedPackage.observation] at hsame ⊢
        rw [hname, hsame]
      · intro hversion
        have hid := @mergedPackages_perm _ id _ _ hobserved fun p hp q hq hname requested => by
          have hsame := hagree p hp q hq hname
          have hspelled := hversion p hp q hq hname
          simp only [ResolvedPackage.observation, Prod.mk.injEq] at hsame
          obtain ⟨-, hurl, hwheel, hdist, hpython, hhashes⟩ := hsame
          rw [id, id, hname, hspelled, hurl, hwheel, hdist, hpython, hhashes]
        rwa [List.map_id, List.map_id] at hid

/-- A library that reads the names, versions and URLs of the report below as the real one does. -/
def sampleLibrary : ReportLibrary where
  isFinite := fun _ => true
  canonicalizeName := fun name => if name ∈ ["Demo", "demo"] then some "demo" else none
  version := fun text =>
    if text = "1.0" then some (.ofMajor 1)
    else if text = "1.0.0" then some ⟨0, [1, 0, 0], none, none, none, none, by decide⟩
    else none
  urlsplit := fun url =>
    if url = "https://host/demo-1.0-py3-none-any.whl" then
      some ⟨"https", "host", "/demo-1.0-py3-none-any.whl", "", "", none, none, some "host"⟩
    else none
  ipv6Address := fun _ => false
  ipv4Address := fun _ => false
  isdigit := fun _ => false
  idna := some
  lower := id
  wheelFilename := fun name => name = "demo-1.0-py3-none-any.whl"

def sampleEntry (name version : String) (requested : Bool) : JsonValue :=
  .object [
    (.ofString "metadata", .object [
      (.ofString "name", .string (.ofString name)),
      (.ofString "version", .string (.ofString version))]),
    (.ofString "download_info", .object [
      (.ofString "url", .string (.ofString "https://host/demo-1.0-py3-none-any.whl"))]),
    (.ofString "requested", .bool requested)]

/-- One package twice, with two spellings of its name and its version. -/
def twiceReported : List JsonValue :=
  [sampleEntry "Demo" "1.0" false, sampleEntry "demo" "1.0.0" true]

def twiceReport : Report where
  members := [(.ofString "version", .int 1), (.ofString "install", .array twiceReported)]
  nodup := by decide +kernel

theorem twiceReport_limits : WithinLimits sampleLibrary twiceReport twiceReported where
  version := by decide +kernel
  install := rfl
  bounded := by decide +kernel
  structural := by decide +kernel

/-- The package of either entry. -/
def demoPackage (version : Version) (requested : Bool) : ResolvedPackage where
  name := "demo"
  version := version
  requested := requested
  artifactUrl := "https://host/demo-1.0-py3-none-any.whl"
  wheelFilename := "demo-1.0-py3-none-any.whl"
  requiresDist := []
  requiresPython := none
  archiveHashes := []

theorem twiceReported_parsed :
    parseInstallEntry sampleLibrary (sampleEntry "Demo" "1.0" false) =
        .ok (demoPackage ⟨0, [1, 0], none, none, none, none, by decide⟩ false) ∧
      parseInstallEntry sampleLibrary (sampleEntry "demo" "1.0.0" true) =
        .ok (demoPackage ⟨0, [1, 0, 0], none, none, none, none, by decide⟩ true) := by
  decide +kernel

/-- The entries are accepted in both orders, as one requested package. -/
theorem twiceReport_merged :
    (∃ result, parsePipReport sampleLibrary twiceReport = .ok result ∧
      result.packages.map ResolvedPackage.name = ["demo"]) ∧
    ∃ result, parsePipReport sampleLibrary
      (twiceReport.withInstall twiceReported.reverse) = .ok result := by
  obtain ⟨hfirst, hsecond⟩ := twiceReported_parsed
  have hvalid : ∀ entry ∈ twiceReported, EntryValid sampleLibrary entry := by
    unfold twiceReported
    simp only [List.forall_mem_cons, List.not_mem_nil, false_implies, implies_true, and_true]
    exact ⟨⟨_, hfirst⟩, ⟨_, hsecond⟩⟩
  have hobserved : observedPackages sampleLibrary twiceReported =
      [demoPackage ⟨0, [1, 0], none, none, none, none, by decide⟩ false,
        demoPackage ⟨0, [1, 0, 0], none, none, none, none, by decide⟩ true] := by
    unfold observedPackages twiceReported
    simp only [List.filterMap_cons, hfirst, hsecond, Except.toOption, List.filterMap_nil]
  have hagree : Agree (observedPackages sampleLibrary twiceReported) := by
    rw [hobserved]
    simp only [Agree, ← sameObservation_iff]
    decide +kernel
  have haccepted := (pip_report_merges twiceReport_limits).1.2 ⟨hvalid, hagree⟩
  refine ⟨?_, ((pip_report_merges twiceReport_limits).2.2 _ (List.reverse_perm _)).1.2 haccepted⟩
  obtain ⟨result, hresult⟩ := haccepted
  refine ⟨result, hresult, ?_⟩
  rw [((pip_report_merges twiceReport_limits).2.1 result hresult).1, hobserved]
  decide +kernel

end WheelForge.Resolver
