import Mathlib.Algebra.GroupWithZero.Nat
import WheelForge.Jobs.Fencing
import WheelForge.Jobs.LogOrder
import WheelForge.Jobs.PackageRows
import WheelForge.Parser.Inertness
import WheelForge.Parser.Reparse

/-!
# The widths of the columns

The strings that `complete_parse`, `persist_resolution` and `persist_package_results` write into
`VARCHAR` columns, and the widths that the V1 schema gives these columns. Texts of errors and logs
and the original text of a line are cut to the width of their column; names, specifiers, markers,
versions and file names are not. The rows that a commit leaves fit if and only if these fit
(`persisted_strings_fit_iff`); for the parsed requirements this is a condition on the lines of the
file, since the specifier of an item is merged from all lines with its name and marker.
-/

set_option autoImplicit false

namespace WheelForge.Jobs

open WheelForge.Relational
open WheelForge.Parser
open WheelForge.Pep440 (Packaging Version)
open WheelForge.Resolver (ResolutionResult ResolvedPackage VersionChange VersionChangeKind
  PackageSource)
open WheelForge.Build (DownloadedWheel StaticValidationReport)

/-! ## Columns -/

/-- The `VARCHAR` columns that the three operations write. -/
inductive Column where
  -- requirement_files
  | detectedEncoding
  | normalizedObjectKey
  | parseStatus
  -- build_jobs
  | jobStatus
  -- requirement_items
  | itemName
  | specifier
  | markerText
  | originalText
  | itemErrorCode
  | itemErrorMessage
  -- resolved_packages
  | packageName
  | finalVersion
  | dependencyType
  | originalConstraint
  | strictVersion
  | changeDirection
  | changeReason
  | wheelFilename
  | packageSourceCode
  | wheelStatus
  | errorMessage
  -- build_logs
  | logStage
  | logLevel
  | logMessage
deriving DecidableEq, Repr

/-- The width that `V1__baseline.sql` gives the column, in characters. -/
def Column.width : Column → Nat
  | detectedEncoding | parseStatus | jobStatus | dependencyType | logLevel => 20
  | changeDirection | wheelStatus => 30
  | packageSourceCode | logStage => 50
  | finalVersion | strictVersion | itemErrorCode => 100
  | itemName | packageName => 255
  | specifier | originalConstraint | wheelFilename => 500
  | normalizedObjectKey => 512
  | markerText | changeReason => 1000
  | originalText | errorMessage | itemErrorMessage => 2000
  | logMessage => 4000

/-- A value written into a column; `none` is `NULL`. -/
abbrev Write := Column × Option String

/-- The value is not longer than the column is wide. -/
def Fits (w : Write) : Prop := ∀ text, w.2 = some text → text.length ≤ w.1.width

@[simp] theorem fits_none (column : Column) : Fits (column, none) := by
  rintro text ⟨⟩

@[simp] theorem fits_some {column : Column} {text : String} :
    Fits (column, some text) ↔ text.length ≤ column.width := by
  constructor
  · intro h
    exact h text rfl
  · rintro h _ ⟨⟩
    exact h

def AllFit (writes : List Write) : Prop := ∀ w ∈ writes, Fits w

@[simp] theorem allFit_nil : AllFit [] := by
  rintro w ⟨⟩

@[simp] theorem allFit_cons {w : Write} {writes : List Write} :
    AllFit (w :: writes) ↔ Fits w ∧ AllFit writes :=
  List.forall_mem_cons

@[simp] theorem allFit_append {writes writes' : List Write} :
    AllFit (writes ++ writes') ↔ AllFit writes ∧ AllFit writes' :=
  List.forall_mem_append

/-! ## What the operations write -/

/-- The strings of an inserted row of `requirement_items`. -/
def RequirementItemRow.writes (r : RequirementItemRow) : List Write :=
  [(.itemName, some r.normalizedName), (.specifier, some r.specifier), (.markerText, r.markerText),
    (.originalText, some r.originalText), (.itemErrorCode, r.errorCode),
    (.itemErrorMessage, r.errorMessage)]

/-- The strings of an update of a row of `resolved_packages` with the result of a package. -/
def ResolvedPackageRow.resultWrites (r : ResolvedPackageRow) : List Write :=
  [(.wheelFilename, r.wheelFilename), (.packageSourceCode, r.packageSourceCode),
    (.wheelStatus, some r.wheelStatus), (.errorMessage, r.errorMessage)]

/-- The strings of an inserted row of `resolved_packages`. -/
def ResolvedPackageRow.writes (r : ResolvedPackageRow) : List Write :=
  [(.packageName, some r.normalizedName), (.finalVersion, r.finalVersion),
    (.dependencyType, some r.dependencyType), (.originalConstraint, r.originalConstraint),
    (.strictVersion, r.strictVersion), (.changeDirection, some r.changeDirection),
    (.changeReason, r.changeReason)] ++ r.resultWrites

/-- The strings of an inserted row of `build_logs`. -/
def BuildLog.writes (r : BuildLog) : List Write :=
  [(.logStage, some r.stage), (.logLevel, some r.level), (.logMessage, some r.message)]

/-- The strings of an update of a row of `requirement_files` with a parsed file. -/
def RequirementFile.parsedWrites (f : RequirementFile) : List Write :=
  [(.detectedEncoding, f.detectedEncoding), (.normalizedObjectKey, f.normalizedObjectKey),
    (.parseStatus, some f.parseStatus.value)]

/-- The strings of an update of a row of `build_jobs` with a result. -/
def BuildJob.resultWrites (r : BuildJob) : List Write := [(.jobStatus, some r.status.value)]

/-- The rows that `complete_parse` inserts. -/
def itemRows (fileId : Uuid) (uuids : Nat → Uuid) (items : List RequirementItem) :
    List RequirementItemRow :=
  items.mapIdx fun i item => JobRepository.itemRow fileId (uuids i) item

/-- The strings of the log row of `persist_resolution`. -/
def auditWrites (repo : JobRepository) : List Write :=
  [(.logStage, some (bounded "RESOLUTION_AUDIT" 50)), (.logLevel, some (bounded "INFO" 20)),
    (.logMessage, some (repo.sanitizeText "Resolution audit recorded" 4000))]

/-- The wheel of a package among the downloaded ones. -/
def observedWheel (wheels : List DownloadedWheel) (package : ResolvedPackage) :
    Option DownloadedWheel :=
  wheels.reverse.find? fun w => w.package = package.name

/-- The file name that is recorded for a package. -/
def recordedFilename (wheels : List DownloadedWheel) (package : ResolvedPackage) : String :=
  ((observedWheel wheels package).map DownloadedWheel.filename).getD package.wheelFilename

/-- The strings of the update for a package in `persist_package_results`. -/
def packageResultWrites (repo : JobRepository) (resolution : ResolutionResult)
    (wheels : List DownloadedWheel) (validation : StaticValidationReport)
    (downloadFailures : List (String × String)) (package : ResolvedPackage) : List Write :=
  let wheel := observedWheel wheels package
  let failure := (downloadFailures.reverse.find? fun f => f.1 = package.name).map Prod.snd
  let result := JobRepository.packageStatus wheel (repo.packageIssues validation package.name)
    failure
  [(.wheelFilename, some (recordedFilename wheels package)),
    (.packageSourceCode,
      match wheel with
      | some w => some w.source.value
      | none => resolution.source.map PackageSource.value),
    (.wheelStatus, some result.1),
    (.errorMessage,
      match result.2 with
      | some text => if text = "" then none else some (repo.sanitizeText text 2000)
      | none => none)]

/-! ## The rows of a commit -/

/-- The rows that `complete_parse` writes fit. -/
structure ParsedRowsFit (lease : JobLease) (db : Database) : Prop where
  items : ∀ r ∈ db.requirementItems, r.requirementFileId = lease.subjectId → AllFit r.writes
  file : ∀ f, db.file? lease.subjectId = some f → AllFit f.parsedWrites
  job : ∀ j, db.job? lease.id = some j → AllFit j.resultWrites

/-- The rows that `persist_resolution` writes fit. -/
structure ResolutionRowsFit (lease : JobLease) (db db' : Database) : Prop where
  packages : ∀ r ∈ db'.resolvedPackages, r.buildTaskId = lease.subjectId → AllFit r.writes
  logs : ∀ log ∈ db'.buildLogs, log ∉ db.buildLogs → AllFit log.writes

/-- The rows that `persist_package_results` writes fit. -/
def ResultRowsFit (lease : JobLease) (resolution : ResolutionResult) (db : Database) : Prop :=
  ∀ package ∈ resolution.packages, ∀ r ∈ db.resolvedPackages, r.buildTaskId = lease.subjectId →
    r.normalizedName = package.name → AllFit r.resultWrites

/-! ## The operations write these strings -/

theorem insertItems_rows {fileId : Uuid} {uuids : Nat → Uuid} {items : List RequirementItem}
    {drawn : Nat} {table table' : Table RequirementItemRow}
    (h : JobRepository.insertItems fileId uuids items drawn table = some table') :
    table'.rows = table.rows ++
      items.mapIdx fun i item => JobRepository.itemRow fileId (uuids (drawn + i)) item := by
  induction items generalizing drawn table with
  | nil =>
      cases h
      simp
  | cons item items ih =>
      unfold JobRepository.insertItems at h
      split at h
      · cases h
      · next table₁ hinsert =>
          rw [ih h, (Table.insert?_eq_some hinsert).2, List.mapIdx_cons, List.append_assoc]
          simp [Nat.add_assoc, Nat.add_comm 1]

/-- A `complete_parse` that commits has inserted the rows and updated the file. -/
theorem completeParse_written {lease : JobLease} {parsed : ParsedRequirements} {key : String}
    {uuids : Nat → Uuid} {now : DateTime} {db db' : Database}
    (h : JobRepository.completeParse lease parsed key uuids now db = .ok (true, db')) :
    db'.requirementItems.rows =
        (db.requirementItems.deleteWhere fun r =>
          decide (r.requirementFileId = lease.subjectId)).rows ++
        itemRows lease.subjectId uuids parsed.items ∧
      ∃ f, db.file? lease.subjectId = some f ∧
        db'.file? lease.subjectId = some (f.parsed parsed.encoding key) := by
  unfold JobRepository.completeParse at h
  split at h
  · split at h
    · cases h
    · next locked hlocked =>
      split at h
      · cases h
      · split at h
        · cases h
        · next items hitems =>
          split at h
          · cases h
          · next db₁ hupdate =>
            split at h
            · cases h
            · next db₂ hcomplete =>
              cases h
              obtain ⟨f, hf, -, rfl⟩ := Database.updateFile_eq_some_iff.1 hupdate
              obtain ⟨j, -, rfl⟩ := updateOwnedJob_eq_some_iff.1 hcomplete
              have hrows := insertItems_rows hitems
              simp only [Nat.zero_add] at hrows
              refine ⟨hrows, f, hf, ?_⟩
              have hkey : f.id = lease.subjectId := Table.key_of_find? hf
              have hreplace := Table.find?_replace_self (r := f.parsed parsed.encoding key)
                (x := f) (t := db.requirementFiles) (by
                  rw [show Keyed.key (f.parsed parsed.encoding key) = lease.subjectId from hkey]
                  exact hf)
              rw [show Keyed.key (f.parsed parsed.encoding key) = lease.subjectId from hkey]
                at hreplace
              exact hreplace
  · cases h

theorem insertPackages_rows {rows : List ResolvedPackageRow}
    {table table' : Table ResolvedPackageRow}
    (h : JobRepository.insertPackages rows table = some table') :
    table'.rows = table.rows ++ rows := by
  induction rows generalizing table with
  | nil =>
      cases h
      simp
  | cons row rows ih =>
      unfold JobRepository.insertPackages at h
      split at h
      · cases h
      · split at h
        · cases h
        · next table₁ hinsert =>
            rw [ih h, (Table.insert?_eq_some hinsert).2, List.append_assoc]
            rfl

theorem appendLogRow_written {repo : JobRepository} {lease : JobLease}
    {stage level message : String} {context : Option Json} {rowId : Uuid} {now : DateTime}
    {db db' : Database} {sequence : Nat}
    (h : repo.appendLogRow lease stage level message context rowId now db = .ok (sequence, db')) :
    db'.resolvedPackages = db.resolvedPackages ∧
      ∃ log, db'.buildLogs.rows = db.buildLogs.rows ++ [log] ∧
        log.writes = [(.logStage, some (bounded stage 50)), (.logLevel, some (bounded level 20)),
          (.logMessage, some (repo.sanitizeText message 4000))] := by
  unfold JobRepository.appendLogRow at h
  split at h
  · cases h
  · split at h
    · cases h
    · split at h
      · cases h
      · split at h
        · cases h
        · next logs hinsert =>
            cases h
            exact ⟨rfl, _, (Table.insert?_eq_some hinsert).2, rfl⟩

/-- A `persist_resolution` that commits has inserted the rows of the packages and one log row. -/
theorem persistResolution_written {repo : JobRepository} {lease : JobLease}
    {resolution : ResolutionResult} {uuids : Nat → Uuid} {now : DateTime} {db db' : Database}
    (h : repo.persistResolution lease resolution uuids now db = .ok ((), db')) :
    ∃ audits, db'.resolvedPackages.rows =
        (db.resolvedPackages.deleteWhere fun r => decide (r.buildTaskId = lease.subjectId)).rows ++
          JobRepository.packageRows lease.subjectId uuids resolution audits ∧
      ∃ log, db'.buildLogs.rows = db.buildLogs.rows ++ [log] ∧ log.writes = auditWrites repo := by
  unfold JobRepository.persistResolution at h
  split at h
  · cases h
  · split at h
    · next audits summary _ _ =>
      split at h
      · split at h
        · cases h
        · next packages hinsert =>
          split at h
          · cases h
          · next sequence db₁ hlog =>
              cases h
              obtain ⟨hsame, log, hrows, hwrites⟩ := appendLogRow_written hlog
              refine ⟨audits, ?_, log, hrows, hwrites⟩
              rw [hsame]
              exact insertPackages_rows hinsert
      · cases h
    · cases h

section Results

variable {repo : JobRepository} {taskId : Uuid} {resolution : ResolutionResult}
  {wheels : List DownloadedWheel} {validation : StaticValidationReport}
  {downloadFailures : List (String × String)} {package : ResolvedPackage}
  {packages : List ResolvedPackage} {table table' : Table ResolvedPackageRow}

/-- The update for a package finds one row of its name and writes the strings of the result there. -/
theorem persistPackageResult_some
    (h : repo.persistPackageResult taskId resolution wheels validation downloadFailures package
      table = some table') :
    table.countWhere (isPackageRow taskId package.name) = 1 ∧
      ∃ f hf, table' = table.updateWhere (isPackageRow taskId package.name) f hf ∧
        (∀ r, isPackageRow taskId package.name (f r) = isPackageRow taskId package.name r) ∧
        ∀ r, (f r).resultWrites =
          packageResultWrites repo resolution wheels validation downloadFailures package := by
  unfold JobRepository.persistPackageResult at h
  dsimp only at h
  split at h
  · next hcount =>
      cases h
      refine ⟨hcount, _, _, rfl, fun _ => rfl, fun r => ?_⟩
      have hfilename : ((observedWheel wheels package).map DownloadedWheel.filename <|>
          some package.wheelFilename) = some (recordedFilename wheels package) := by
        unfold recordedFilename
        cases observedWheel wheels package <;> rfl
      unfold ResolvedPackageRow.resultWrites packageResultWrites
      rw [← hfilename]
      rfl
  · cases h

theorem persistPackageResult_written
    (h : repo.persistPackageResult taskId resolution wheels validation downloadFailures package
      table = some table') {r : ResolvedPackageRow} (hr : r ∈ table')
    (htask : r.buildTaskId = taskId) (hname : r.normalizedName = package.name) :
    r.resultWrites =
      packageResultWrites repo resolution wheels validation downloadFailures package := by
  obtain ⟨-, f, hf, rfl, -, hwrites⟩ := persistPackageResult_some h
  obtain ⟨x, -, rfl⟩ := Table.mem_updateWhere.1 hr
  split at htask
  · next hx => rw [if_pos hx, hwrites]
  · next hx =>
      -- a row that is not updated is of another name
      rw [if_neg hx] at hname
      simp [isPackageRow, htask, hname] at hx

theorem persistPackageResult_row
    (h : repo.persistPackageResult taskId resolution wheels validation downloadFailures package
      table = some table') :
    ∃ r ∈ table', r.buildTaskId = taskId ∧ r.normalizedName = package.name := by
  obtain ⟨hcount, f, hf, rfl, hrow, -⟩ := persistPackageResult_some h
  obtain ⟨x, hx⟩ := List.exists_mem_of_length_pos (hcount.symm ▸ Nat.one_pos)
  obtain ⟨hmem, hp⟩ := List.mem_filter.1 hx
  refine ⟨_, Table.mem_updateWhere.2 ⟨x, hmem, rfl⟩, ?_⟩
  rw [if_pos hp]
  simpa [isPackageRow] using (hrow x).trans hp

/-- The updates for packages leave the rows of other names alone. -/
theorem persistPackages_other
    (h : repo.persistPackages taskId resolution wheels validation downloadFailures packages table =
      some table') {r : ResolvedPackageRow}
    (hr : ∀ package ∈ packages, r.normalizedName ≠ package.name) : r ∈ table' ↔ r ∈ table := by
  induction packages generalizing table with
  | nil =>
      cases h
      exact Iff.rfl
  | cons package packages ih =>
      unfold JobRepository.persistPackages at h
      split at h
      · cases h
      · next table₁ hstep =>
          obtain ⟨-, f, hf, rfl, hrow, -⟩ := persistPackageResult_some hstep
          rw [ih h fun p hp => hr p (List.mem_cons_of_mem _ hp)]
          -- the update of the first package does not match the row
          apply Table.mem_updateWhere_of_unmatched hrow
          simp [isPackageRow, hr package List.mem_cons_self]

/-- For packages of different names, the updates leave the strings of each result in the row of its
package. -/
theorem persistPackages_written
    (h : repo.persistPackages taskId resolution wheels validation downloadFailures packages table =
      some table') (hnodup : (packages.map ResolvedPackage.name).Nodup) :
    ∀ package ∈ packages,
      (∃ r ∈ table', r.buildTaskId = taskId ∧ r.normalizedName = package.name) ∧
      ∀ r ∈ table', r.buildTaskId = taskId → r.normalizedName = package.name →
        r.resultWrites =
          packageResultWrites repo resolution wheels validation downloadFailures package := by
  induction packages generalizing table with
  | nil => exact fun _ hmem => absurd hmem List.not_mem_nil
  | cons first packages ih =>
      obtain ⟨hfirst, hrest⟩ := List.nodup_cons.1 hnodup
      unfold JobRepository.persistPackages at h
      split at h
      · cases h
      · next table₁ hstep =>
          intro package hpackage
          rcases List.mem_cons.1 hpackage with rfl | hpackage
          · -- the later updates are those of other names
            have hkept : ∀ r : ResolvedPackageRow, r.normalizedName = package.name →
                (r ∈ table' ↔ r ∈ table₁) := by
              intro r hname
              apply persistPackages_other h
              intro p hp heq
              exact hfirst (List.mem_map.2 ⟨p, hp, heq.symm.trans hname⟩)
            obtain ⟨r, hr, htask, hname⟩ := persistPackageResult_row hstep
            refine ⟨⟨r, (hkept r hname).2 hr, htask, hname⟩, ?_⟩
            intro r hr htask hname
            exact persistPackageResult_written hstep ((hkept r hname).1 hr) htask hname
          · exact ih h hrest package hpackage

end Results

/-! ## What fits -/

theorem intercalate_length (parts : List String) :
    (",".intercalate parts).length = (parts.map String.length).sum + (parts.length - 1) := by
  induction parts with
  | nil => rfl
  | cons part parts ih =>
      cases parts with
      | nil => simp
      | cons next rest =>
          have hcomma : ",".length = 1 := rfl
          rw [String.intercalate_cons_cons, String.length_append, String.length_append, ih, hcomma]
          simp only [List.map_cons, List.sum_cons, List.length_cons]
          omega

/-- The characters that the constraints take when they are written out with commas. -/
def writtenLength (constraints : List Constraint) : Nat :=
  (constraints.map fun c => c.specifier.str.length).sum + (constraints.length - 1)

/-- The length of a merged specifier: each constraint is written once. -/
theorem formatSpecifiers_length (constraints : List Constraint) :
    (formatSpecifiers (deduplicateSpecifiers constraints)).length =
      writtenLength constraints.dedup := by
  unfold formatSpecifiers writtenLength
  rw [intercalate_length, List.length_map, List.map_map]
  have hperm : (deduplicateSpecifiers constraints).Perm constraints.dedup :=
    List.perm_insertionSort _ _
  rw [hperm.length_eq]
  congr 1
  exact (hperm.map _).sum_nat

/-- The lines of a requirements file give strings that fit: names and markers within their columns,
and, for each name and marker, the distinct constraints of the lines with them, written out with
commas. -/
structure LinesFit (lines : List Entry) : Prop where
  name : ∀ line ∈ lines, line.item.name.length ≤ 255
  marker : ∀ line ∈ lines, ∀ marker, line.item.marker = some marker → marker.length ≤ 1000
  constraints : ∀ line ∈ lines, writtenLength (keyConstraints lines line.key).dedup ≤ 500

theorem bounded_length (value : String) (limit : Nat) : (bounded value limit).length ≤ limit := by
  unfold bounded
  rw [String.length_ofList, List.length_take]
  exact min_le_left _ _

/-- The strings of an item fit if and only if its name, specifier and marker do. -/
theorem itemRow_fit_iff {fileId rowId : Uuid} {item : RequirementItem} :
    AllFit (JobRepository.itemRow fileId rowId item).writes ↔
      item.name.length ≤ 255 ∧ item.specifier.length ≤ 500 ∧
        ∀ marker, item.marker = some marker → marker.length ≤ 1000 := by
  have horiginal : Fits (.originalText, some (bounded item.originalText 2000)) :=
    fits_some.2 (bounded_length _ _)
  simp only [RequirementItemRow.writes, JobRepository.itemRow, allFit_cons, allFit_nil, fits_some,
    fits_none, and_true, Column.width]
  constructor
  · rintro ⟨hname, hspecifier, hmarker, -⟩
    exact ⟨hname, hspecifier, hmarker⟩
  · rintro ⟨hname, hspecifier, hmarker⟩
    exact ⟨hname, hspecifier, hmarker, fits_some.1 horiginal⟩

theorem itemRows_fit_iff {fileId : Uuid} {uuids : Nat → Uuid} {items : List RequirementItem} :
    (∀ row ∈ itemRows fileId uuids items, AllFit row.writes) ↔
      ∀ item ∈ items, item.name.length ≤ 255 ∧ item.specifier.length ≤ 500 ∧
        ∀ marker, item.marker = some marker → marker.length ≤ 1000 := by
  constructor
  · intro h item hitem
    obtain ⟨i, hi, rfl⟩ := List.getElem_of_mem hitem
    apply itemRow_fit_iff.1
    exact h _ (List.mem_mapIdx.2 ⟨i, hi, rfl⟩)
  · intro h row hrow
    obtain ⟨i, hi, rfl⟩ := List.mem_mapIdx.1 hrow
    exact itemRow_fit_iff.2 (h _ (List.getElem_mem hi))

/-- The items of an accepted file fit if and only if its lines do. -/
theorem items_fit_iff {pk : Packaging} {lines entries : List Entry}
    (h : Merged pk lines entries) :
    (∀ entry ∈ entries, entry.item.name.length ≤ 255 ∧ entry.item.specifier.length ≤ 500 ∧
        ∀ marker, entry.item.marker = some marker → marker.length ≤ 1000) ↔ LinesFit lines := by
  have hspecifier : ∀ entry ∈ entries, entry.item.specifier.length =
      writtenLength (keyConstraints lines entry.key).dedup := by
    intro entry hentry
    rw [(h.ok entry hentry).specifier, h.constraints entry hentry, formatSpecifiers_length]
  constructor
  · intro hfit
    -- an item stands for every line with its name and marker
    have hentry : ∀ line ∈ lines, ∃ entry ∈ entries, entry.key = line.key := by
      intro line hline
      exact List.mem_map.1 ((h.keys line.key).2 (List.mem_map_of_mem hline))
    constructor
    · intro line hline
      obtain ⟨entry, he, hkey⟩ := hentry line hline
      have hname : entry.item.name = line.item.name := congrArg Prod.fst hkey
      rw [← hname]
      exact (hfit entry he).1
    · intro line hline marker hmarker
      obtain ⟨entry, he, hkey⟩ := hentry line hline
      have hsame : entry.item.marker = line.item.marker := congrArg Prod.snd hkey
      exact (hfit entry he).2.2 marker (hsame.trans hmarker)
    · intro line hline
      obtain ⟨entry, he, hkey⟩ := hentry line hline
      rw [← hkey, ← hspecifier entry he]
      exact (hfit entry he).2.1
  · intro hfit entry he
    obtain ⟨line, hline, hkey⟩ := List.mem_map.1 ((h.keys entry.key).1 (List.mem_map_of_mem he))
    have hname : line.item.name = entry.item.name := congrArg Prod.fst hkey
    have hmarker : line.item.marker = entry.item.marker := congrArg Prod.snd hkey
    refine ⟨?_, ?_, ?_⟩
    · rw [← hname]
      exact hfit.name line hline
    · rw [hspecifier entry he, ← hkey]
      exact hfit.constraints line hline
    · intro marker h
      exact hfit.marker line hline marker (hmarker.trans h)

theorem decode_encoding {gbk : ByteArray → Option String} {raw : ByteArray} {text encoding : String}
    (h : decode gbk raw = some (text, encoding)) :
    encoding = "utf-8-sig" ∨ encoding = "utf-8" ∨ encoding = "gbk" := by
  unfold decode at h
  simp only [Option.or_eq_some_iff, Option.map_eq_some_iff] at h
  obtain h | ⟨-, a, -, h⟩ := h
  · split at h
    · obtain ⟨a, -, h⟩ := Option.map_eq_some_iff.1 h
      cases h
      exact .inl rfl
    · obtain ⟨a, -, h⟩ := Option.map_eq_some_iff.1 h
      cases h
      exact .inr (.inl rfl)
  · cases h
    exact .inr (.inr rfl)

/-- The encoding of an input fits its column. -/
theorem inputLines_encoding {gbk : ByteArray → Option String} {raw : ByteArray}
    {texts : List String} {encoding : String}
    (h : inputLines gbk raw = .ok (texts, encoding)) :
    Fits (.detectedEncoding, some encoding) := by
  unfold inputLines at h
  split at h
  · cases h
  · split at h
    · cases h
    · next text found hdecode =>
        dsimp only at h
        split at h
        · cases h
        · cases h
          obtain rfl | rfl | rfl := decode_encoding hdecode <;> exact fits_some.2 (by decide)

theorem parsedWrites_fit_iff (f : RequirementFile) (key : String) {encoding : String}
    (hencoding : Fits (.detectedEncoding, some encoding)) :
    AllFit (f.parsed encoding key).parsedWrites ↔ key.length ≤ 512 := by
  have hstatus : Fits (.parseStatus, some ParseStatus.parsed.value) := fits_some.2 (by decide)
  simp only [RequirementFile.parsedWrites, RequirementFile.parsed, allFit_cons, allFit_nil,
    hencoding, hstatus, true_and, and_true]
  exact fits_some

theorem BuildJob.resultWrites_fit (j : BuildJob) : AllFit j.resultWrites := by
  unfold BuildJob.resultWrites
  cases j.status <;> simp only [allFit_cons, allFit_nil, and_true] <;> exact fits_some.2 (by decide)

/-- The rows that `complete_parse` commits for an accepted file fit if and only if the lines of the
file do, and the object key. -/
theorem completeParse_fit_iff {pk : Packaging} (hgrammar : Grammar pk)
    {gbk : ByteArray → Option String} {raw : ByteArray} {parsed : ParsedRequirements}
    {texts : List String} (hinput : inputLines gbk raw = .ok (texts, parsed.encoding))
    (haccepted : parseRequirements pk gbk raw = .ok parsed) {lease : JobLease} {key : String}
    {uuids : Nat → Uuid} {now : DateTime} {db db' : Database}
    (h : JobRepository.completeParse lease parsed key uuids now db = .ok (true, db')) :
    ParsedRowsFit lease db' ↔ LinesFit (lineEntries pk 1 texts) ∧ key.length ≤ 512 := by
  obtain ⟨texts', entries, hparsed⟩ := parseRequirements_ok.1 haccepted
  have htexts : texts' = texts := by
    have hsame := hparsed.input.symm.trans hinput
    cases hsame
    rfl
  subst htexts
  obtain ⟨hrows, f, -, hfile⟩ := completeParse_written h
  have hitems : (∀ r ∈ db'.requirementItems, r.requirementFileId = lease.subjectId →
      AllFit r.writes) ↔ LinesFit (lineEntries pk 1 texts') := by
    rw [← items_fit_iff (hparsed.merged hgrammar)]
    have howned := Table.forall_inserted_iff (q := fun r => AllFit r.writes) hrows fun row hrow => by
      obtain ⟨i, hi, rfl⟩ := List.mem_mapIdx.1 hrow
      exact decide_eq_true rfl
    simp only [decide_eq_true_eq] at howned
    rw [howned, itemRows_fit_iff, hparsed.items, List.forall_mem_map]
  have hkey := parsedWrites_fit_iff f key (inputLines_encoding hinput)
  constructor
  · intro hfit
    exact ⟨hitems.1 hfit.items, hkey.1 (hfit.file _ hfile)⟩
  · rintro ⟨hlines, hlength⟩
    refine ⟨hitems.2 hlines, fun f' hf' => ?_, fun j _ => j.resultWrites_fit⟩
    cases hfile.symm.trans hf'
    exact hkey.2 hlength

/-! ## Resolutions -/

/-- The repository whose `sanitize_text` redacts with `redact` and then cuts, as `text[:limit]`. -/
def JobRepository.sanitizing (repo : JobRepository) (redact : String → String) : JobRepository :=
  { repo with
    sanitizeText := fun text limit => String.ofList ((redact text).toList.take limit) }

theorem sanitizing_length (repo : JobRepository) (redact : String → String) (text : String)
    (limit : Nat) : ((repo.sanitizing redact).sanitizeText text limit).length ≤ limit := by
  unfold JobRepository.sanitizing
  rw [String.length_ofList, List.length_take]
  exact min_le_left _ _

/-- The change that `persist_resolution` records for a package. -/
def recordedChange (resolution : ResolutionResult) (package : ResolvedPackage) :
    Option VersionChange :=
  resolution.changes.reverse.find? fun c => c.package = package.name

/-- A package of a resolution gives strings that fit. -/
structure PackageFits (resolution : ResolutionResult) (package : ResolvedPackage) : Prop where
  name : package.name.length ≤ 255
  version : package.version.str.length ≤ 100
  filename : package.wheelFilename.length ≤ 500
  constraint : ∀ change, recordedChange resolution package = some change →
    change.originalConstraint.length ≤ 500
  strict : ∀ change, recordedChange resolution package = some change →
    ∀ version, change.originalVersion = some version → version.str.length ≤ 100
  reason : ∀ change, recordedChange resolution package = some change → change.reason.length ≤ 1000

theorem fits_kind (kind : VersionChangeKind) : Fits (.changeDirection, some kind.value) := by
  cases kind <;> exact fits_some.2 (by decide)

theorem fits_source (source : Option PackageSource) :
    Fits (.packageSourceCode, source.map PackageSource.value) := by
  cases source with
  | none => exact fits_none _
  | some source => cases source <;> exact fits_some.2 (by decide)

theorem fits_map {α : Type} {column : Column} {value : Option α} {f : α → String} :
    Fits (column, value.map f) ↔ ∀ a, value = some a → (f a).length ≤ column.width := by
  cases value with
  | none => simp
  | some a => simp

theorem packageRow_fit_iff {taskId rowId : Uuid} {resolution : ResolutionResult}
    {audits : String → Json} {package : ResolvedPackage} :
    AllFit (JobRepository.packageRow taskId rowId resolution audits package).writes ↔
      PackageFits resolution package := by
  have hdependency : Fits (.dependencyType,
      some (if package.requested then "DIRECT" else "TRANSITIVE")) := by
    split <;> exact fits_some.2 (by decide)
  have hresolved : Fits (.wheelStatus, some "RESOLVED") := fits_some.2 (by decide)
  have hkind := fits_kind (((recordedChange resolution package).map VersionChange.kind).getD
    .unchanged)
  have hsource := fits_source resolution.source
  have hstrict : Fits (.strictVersion, (recordedChange resolution package).bind fun c =>
      c.originalVersion.map Version.str) ↔
      ∀ change, recordedChange resolution package = some change →
        ∀ version, change.originalVersion = some version → version.str.length ≤ 100 := by
    cases recordedChange resolution package with
    | none => simp
    | some change =>
        rw [Option.bind_some, fits_map]
        simp [Column.width]
  unfold ResolvedPackageRow.writes ResolvedPackageRow.resultWrites JobRepository.packageRow
  simp only [allFit_append, allFit_cons, allFit_nil, fits_none, and_true]
  change (Fits (.packageName, some package.name) ∧
    Fits (.finalVersion, some package.version.str) ∧ _ ∧
    Fits (.originalConstraint,
      (recordedChange resolution package).map VersionChange.originalConstraint) ∧
    Fits (.strictVersion, (recordedChange resolution package).bind fun c =>
      c.originalVersion.map Version.str) ∧ _ ∧
    Fits (.changeReason, (recordedChange resolution package).map VersionChange.reason)) ∧
    Fits (.wheelFilename, some package.wheelFilename) ∧ _ ∧ _ ↔ _
  rw [hstrict, fits_map, fits_map]
  simp only [fits_some, Column.width]
  constructor
  · rintro ⟨⟨hname, hversion, -, hconstraint, hstrict, -, hreason⟩, hfilename, -, -⟩
    exact ⟨hname, hversion, hfilename, hconstraint, hstrict, hreason⟩
  · intro h
    exact ⟨⟨h.name, h.version, fits_some.1 hdependency, h.constraint, h.strict,
      fits_some.1 hkind, h.reason⟩, h.filename, hsource, fits_some.1 hresolved⟩

/-- The rows that `persist_resolution` commits fit if and only if its packages do. -/
theorem persistResolution_fit_iff {repo : JobRepository} {redact : String → String}
    {lease : JobLease} {resolution : ResolutionResult} {uuids : Nat → Uuid} {now : DateTime}
    {db db' : Database}
    (h : (repo.sanitizing redact).persistResolution lease resolution uuids now db = .ok ((), db')) :
    ResolutionRowsFit lease db db' ↔
      ∀ package ∈ resolution.packages, PackageFits resolution package := by
  obtain ⟨audits, hrows, log, hlogs, hwrites⟩ := persistResolution_written h
  have haudit : AllFit log.writes := by
    rw [hwrites]
    simp only [auditWrites, allFit_cons, allFit_nil, fits_some, and_true]
    exact ⟨bounded_length _ _, bounded_length _ _, sanitizing_length _ _ _ _⟩
  have howned := Table.forall_inserted_iff (q := fun r => AllFit r.writes) hrows fun row hrow => by
    obtain ⟨i, hi, rfl⟩ := List.mem_mapIdx.1 hrow
    exact decide_eq_true (packageRow_key _ _ _ _ _).1
  simp only [decide_eq_true_eq] at howned
  have hpackages : (∀ row ∈ JobRepository.packageRows lease.subjectId uuids resolution audits,
      AllFit row.writes) ↔ ∀ package ∈ resolution.packages, PackageFits resolution package := by
    constructor
    · intro hfit package hpackage
      obtain ⟨i, hi, rfl⟩ := List.getElem_of_mem hpackage
      exact packageRow_fit_iff.1 (hfit _ (List.mem_mapIdx.2 ⟨i, hi, rfl⟩))
    · intro hfit row hrow
      obtain ⟨i, hi, rfl⟩ := List.mem_mapIdx.1 hrow
      exact packageRow_fit_iff.2 (hfit _ (List.getElem_mem hi))
  rw [← hpackages, ← howned]
  constructor
  · exact ResolutionRowsFit.packages
  · intro hfit
    refine ⟨hfit, fun row hrow hnew => ?_⟩
    rw [Table.mem_def, hlogs] at hrow
    rcases List.mem_append.1 hrow with hrow | hrow
    · exact absurd hrow hnew
    · cases List.mem_singleton.1 hrow
      exact haudit

theorem fits_packageStatus (wheel : Option DownloadedWheel) (issues : List String)
    (failure : Option String) :
    Fits (.wheelStatus, some (JobRepository.packageStatus wheel issues failure).1) := by
  have hmissing : Fits (.wheelStatus, some "MISSING") := fits_some.2 (by decide)
  have hpassed : Fits (.wheelStatus, some "STATIC_PASSED") := fits_some.2 (by decide)
  have hfailed : Fits (.wheelStatus, some "STATIC_FAILED") := fits_some.2 (by decide)
  unfold JobRepository.packageStatus
  cases wheel with
  | none => exact hmissing
  | some wheel =>
      dsimp only
      split
      · exact hpassed
      · exact hfailed

theorem packageResult_fit_iff {repo : JobRepository} {redact : String → String}
    {resolution : ResolutionResult} {wheels : List DownloadedWheel}
    {validation : StaticValidationReport} {downloadFailures : List (String × String)}
    {package : ResolvedPackage} :
    AllFit (packageResultWrites (repo.sanitizing redact) resolution wheels validation
        downloadFailures package) ↔ (recordedFilename wheels package).length ≤ 500 := by
  unfold packageResultWrites
  dsimp only
  simp only [allFit_cons, allFit_nil, and_true]
  constructor
  · rintro ⟨hfilename, -⟩
    exact fits_some.1 hfilename
  · intro hfilename
    refine ⟨fits_some.2 hfilename, ?_, fits_packageStatus _ _ _, ?_⟩
    · cases observedWheel wheels package with
      | none => exact fits_source resolution.source
      | some wheel => exact fits_source (some wheel.source)
    · split
      · split
        · exact fits_none _
        · exact fits_some.2 (sanitizing_length _ _ _ _)
      · exact fits_none _

/-- The rows that `persist_package_results` commits for packages of different names fit if and only if
the file names of their wheels do. -/
theorem persistPackageResults_fit_iff {repo : JobRepository} {redact : String → String}
    {lease : JobLease} {resolution : ResolutionResult} {wheels : List DownloadedWheel}
    {validation : StaticValidationReport} {downloadFailures : List (String × String)}
    (hnodup : (resolution.packages.map ResolvedPackage.name).Nodup) {now : DateTime}
    {db db' : Database}
    (h : (repo.sanitizing redact).persistPackageResults lease resolution wheels validation
      downloadFailures now db = .ok ((), db')) :
    ResultRowsFit lease resolution db' ↔
      ∀ package ∈ resolution.packages, (recordedFilename wheels package).length ≤ 500 := by
  unfold JobRepository.persistPackageResults at h
  split at h
  · split at h
    · next packages hpackages =>
        cases h
        refine forall₂_congr fun package hpackage => ?_
        obtain ⟨⟨r, hr, htask, hname⟩, hwritten⟩ :=
          persistPackages_written hpackages hnodup package hpackage
        rw [← packageResult_fit_iff]
        constructor
        · intro hfit
          rw [← hwritten r hr htask hname]
          exact hfit r hr htask hname
        · intro hfit r hr htask hname
          rw [hwritten r hr htask hname]
          exact hfit
    · cases h
  · cases h

/-- The rows that the three operations commit for an accepted file and a resolution fit if and only if
the lines of the file, the packages of the resolution and the names of the wheel files do. -/
theorem persisted_strings_fit_iff {pk : Packaging} (hgrammar : Grammar pk)
    {gbk : ByteArray → Option String} {raw : ByteArray} {parsed : ParsedRequirements}
    {texts : List String} (hinput : inputLines gbk raw = .ok (texts, parsed.encoding))
    (haccepted : parseRequirements pk gbk raw = .ok parsed) (repo : JobRepository)
    (redact : String → String) (lease : JobLease) (resolution : ResolutionResult)
    (wheels : List DownloadedWheel) (validation : StaticValidationReport)
    (downloadFailures : List (String × String)) :
    (∀ key uuids now db db',
      JobRepository.completeParse lease parsed key uuids now db = .ok (true, db') →
      (ParsedRowsFit lease db' ↔ LinesFit (lineEntries pk 1 texts) ∧ key.length ≤ 512)) ∧
    (∀ uuids now db db',
      (repo.sanitizing redact).persistResolution lease resolution uuids now db = .ok ((), db') →
      (ResolutionRowsFit lease db db' ↔
        ∀ package ∈ resolution.packages, PackageFits resolution package)) ∧
    ((resolution.packages.map ResolvedPackage.name).Nodup → ∀ now db db',
      (repo.sanitizing redact).persistPackageResults lease resolution wheels validation
        downloadFailures now db = .ok ((), db') →
      (ResultRowsFit lease resolution db' ↔
        ∀ package ∈ resolution.packages, (recordedFilename wheels package).length ≤ 500)) := by
  refine ⟨?_, ?_, ?_⟩
  · intro key uuids now db db' h
    exact completeParse_fit_iff hgrammar hinput haccepted h
  · intro uuids now db db' h
    exact persistResolution_fit_iff h
  · intro hnodup now db db' h
    exact persistPackageResults_fit_iff hnodup h

/-- A resolution of the plain text. -/
def plainResolution : ResolutionResult where
  reportVersion := "1"
  packages := [⟨"demo", plainVersion, true, "https://packages.example/demo-1.0-py3-none-any.whl",
    "demo-1.0-py3-none-any.whl", [], none, []⟩]
  attempts := []
  rejections := []
  changes := []
  source := some .pypi
  rejectionsOmitted := 0
  observationsTruncated := false

/-- A file of one line that begins in ASCII is read as this line. -/
theorem inputLines_single {line : String} {c : Char} {rest : Python.Text}
    (hline : line.toList = c :: rest) (hc : c.toNat < 0x80)
    (hsize : line.toUTF8.size ≤ maxInputBytes)
    (hlines : logicalLines (normalizeNewlines (c :: rest)) = [c :: rest]) :
    inputLines (fun _ => none) line.toUTF8 = .ok ([line], "utf-8") := by
  unfold inputLines
  rw [if_neg (Nat.not_lt.2 hsize), decode_toUTF8 _ hline hc]
  dsimp only
  rw [hline, hlines, List.map_singleton, ← hline, String.ofList_toList]
  rfl

theorem plainLines_fit : LinesFit (lineEntries injectingPackaging 1 [plainText]) := by
  have hline : lineEntries injectingPackaging 1 [plainText] =
      [⟨⟨1, "demo", [], "==1.0", none, "demo==1.0"⟩, [⟨⟨.equal, "1.0"⟩, plainVersion⟩]⟩] := by
    decide
  rw [hline]
  constructor <;> rw [List.forall_mem_singleton]
  · decide
  · rintro marker ⟨⟩
  · decide

/-- A running parse job and its file, held by `expiredLease` before it expires. -/
def parsingFile : Database :=
  { Database.empty with
    buildJobs := ⟨[
      { Api.newJob "j" .requirementParse "f" .null 0 with
        status := .running
        leaseOwner := some "w1"
        executionId := some "e1"
        leaseExpiresAt := some 100 }], List.nodup_singleton _⟩
    requirementFiles := ⟨[
      { id := "f", userId := "u", originalName := "requirements.txt", detectedEncoding := none,
        sizeBytes := 9, sha256 := "digest", originalObjectKey := "original.txt",
        normalizedObjectKey := none, parseStatus := .parsing, parseError := none, createdAt := 0,
        versionNo := 0 }], List.nodup_singleton _⟩ }

/-- A `complete_parse` of one item commits. -/
theorem parsingFile_commits (parsed : ParsedRequirements) {item : RequirementItem}
    (hitems : parsed.items = [item]) :
    ∃ db, JobRepository.completeParse expiredLease parsed "normalized.txt" (fun _ => "item") 50
      parsingFile = .ok (true, db) := by
  unfold JobRepository.completeParse
  rw [hitems]
  exact ⟨_, rfl⟩

def buildLease : JobLease := sampleLease "b" .build "t" "e1" 1 none

/-- The sample repository, with a context that is read back. -/
def auditRepository : JobRepository :=
  { sampleRepository with jsonLoads := fun _ => some .null }

/-- The plain text and its resolution are persisted. -/
theorem plain_strings_fit :
    (∃ db, JobRepository.completeParse expiredLease plainParsed "normalized.txt" (fun _ => "item") 50
        parsingFile = .ok (true, db) ∧ ParsedRowsFit expiredLease db) ∧
      ∃ db db', (auditRepository.sanitizing id).persistResolution buildLease plainResolution
          (fun _ => "package") 50 (runningBuild "e1" Table.empty) = .ok ((), db) ∧
        ResolutionRowsFit buildLease (runningBuild "e1" Table.empty) db ∧
        (auditRepository.sanitizing id).persistPackageResults buildLease plainResolution []
          ⟨[], true, rfl⟩ [] 50 db = .ok ((), db') ∧
        ResultRowsFit buildLease plainResolution db' := by
  have hinput : inputLines (fun _ => none) plainText.toUTF8 = .ok ([plainText], "utf-8") :=
    inputLines_single (rfl : plainText.toList = 'd' :: "emo==1.0".toList) (by decide)
      (by decide +kernel) (by decide +kernel)
  have hfilename : ("demo-1.0-py3-none-any.whl" : String).length ≤ 500 := by decide +kernel
  obtain ⟨db, hdb⟩ := parsingFile_commits plainParsed rfl
  have hrun : ∃ db₁, (auditRepository.sanitizing id).persistResolution buildLease
        plainResolution (fun _ => "package") 50 (runningBuild "e1" Table.empty) = .ok ((), db₁) ∧
      ∃ db₂, (auditRepository.sanitizing id).persistPackageResults buildLease plainResolution []
        ⟨[], true, rfl⟩ [] 50 db₁ = .ok ((), db₂) := ⟨_, rfl, _, rfl⟩
  obtain ⟨db₁, hdb₁, db₂, hdb₂⟩ := hrun
  obtain ⟨hparse, -, -⟩ := persisted_strings_fit_iff injectingPackaging_grammar hinput
    plainParsed_eq auditRepository id expiredLease plainResolution [] ⟨[], true, rfl⟩ []
  obtain ⟨-, hresolution, hresults⟩ := persisted_strings_fit_iff injectingPackaging_grammar hinput
    plainParsed_eq auditRepository id buildLease plainResolution [] ⟨[], true, rfl⟩ []
  refine ⟨⟨db, hdb, (hparse _ _ _ _ _ hdb).2 ⟨plainLines_fit, by decide⟩⟩, db₁, db₂, hdb₁,
    (hresolution _ _ _ _ hdb₁).2 ?_, hdb₂, (hresults ?_ _ _ _ hdb₂).2 ?_⟩
  · simp only [plainResolution, List.forall_mem_singleton]
    exact ⟨by decide, by decide +kernel, hfilename, by rintro c ⟨⟩, by rintro c ⟨⟩,
      by rintro c ⟨⟩⟩
  · exact List.nodup_singleton _
  · simp only [plainResolution, List.forall_mem_singleton]
    exact hfilename

/-- A name of 256 letters. -/
def longName : String := String.ofList (List.replicate 256 'a')

theorem longName_toList : longName.toList = List.replicate 256 'a' := String.toList_ofList

/-- What packaging reads from the name. -/
def longPackaging : Packaging :=
  { injectingPackaging with
    requirement := fun text =>
      if text = longName then .ok ⟨longName, [], [], none, none⟩ else .error .invalidRequirement }

theorem longPackaging_accepts {text : String} {r : Pep440.Requirement}
    (h : longPackaging.requirement text = .ok r) : r = ⟨longName, [], [], none, none⟩ := by
  unfold longPackaging at h
  dsimp only at h
  by_cases htext : text = longName
  · rw [if_pos htext] at h
    exact (Except.ok.inj h).symm
  · rw [if_neg htext] at h
    cases h

theorem longPackaging_grammar : Grammar longPackaging where
  name := by
    intro text r h
    have hname : (longPackaging.canonicalizeName longName).toList = List.replicate 256 'a' :=
      longName_toList
    rw [longPackaging_accepts h]
    show Canonical (longPackaging.canonicalizeName longName).toList
    rw [hname]
    refine ⟨⟨'a', by decide, by decide, by decide⟩, fun c hc => ?_⟩
    rw [List.eq_of_mem_replicate hc]
    decide
  extra := by
    intro text r h e he
    rw [longPackaging_accepts h] at he
    cases he
  version := by
    intro text r h s hs _ _
    rw [longPackaging_accepts h] at hs
    cases hs
  marker := by
    intro text r m h hm
    rw [longPackaging_accepts h] at hm
    cases hm

/-- What the parser makes of the name. -/
def longParsed : ParsedRequirements where
  normalizedText := longName ++ "\n"
  items := [⟨1, longName, [], "", none, longName⟩]
  encoding := "utf-8"

theorem longName_lines :
    inputLines (fun _ => none) longName.toUTF8 = .ok ([longName], "utf-8") :=
  inputLines_single (longName_toList.trans rfl) (by decide) (by decide +kernel) (by decide +kernel)

/-- The line of the name is the name, and `pip` reads it as it stands. -/
theorem longName_format : formatItem ⟨1, longName, [], "", none, longName⟩ = longName := by
  show (longName ++ "" ++ "") ++ "" = longName
  simp

theorem longName_safe : ensurePipFileSafe (formatItem ⟨1, longName, [], "", none, longName⟩).toList
    1 longName = .ok () := by
  rw [longName_format, longName_toList]
  decide +kernel

theorem longName_entry : readLine longPackaging 1 longName =
    .ok (some ⟨⟨1, longName, [], "", none, longName⟩, []⟩) := by
  have htext : requirementText longName 1 = .ok (some (List.replicate 256 'a')) := by
    unfold requirementText
    rw [longName_toList]
    decide +kernel
  have hparse : parseLine longPackaging (List.replicate 256 'a') 1 longName =
      .ok (⟨longName, [], [], none, none⟩, []) := by
    unfold parseLine longPackaging
    dsimp only
    rw [show String.ofList (List.replicate 256 'a') = longName from rfl, if_pos rfl]
    rfl
  exact Python.bind_ok.2 ⟨_, htext, Python.bind_ok.2 ⟨_, hparse,
    Python.bind_ok.2 ⟨(), longName_safe, rfl⟩⟩⟩

theorem longName_parsed :
    parseRequirements longPackaging (fun _ => none) longName.toUTF8 = .ok longParsed := by
  have hread : readLines longPackaging 1 [longName] [] =
      .ok [⟨⟨1, longName, [], "", none, longName⟩, []⟩] :=
    Python.bind_ok.2 ⟨_, longName_entry, rfl⟩
  have hsafe : ensureItemsSafe [⟨1, longName, [], "", none, longName⟩] = .ok () :=
    Python.bind_ok.2 ⟨(), longName_safe, rfl⟩
  refine Python.bind_ok.2 ⟨_, longName_lines, Python.bind_ok.2 ⟨_, hread, Python.bind_ok.2
    ⟨(), hsafe, ?_⟩⟩⟩
  unfold normalizedText longParsed
  show Except.ok (⟨"\n".intercalate [formatItem _] ++ "\n", _, _⟩ : ParsedRequirements) = _
  rw [longName_format]
  rfl

/-- The file with the name is accepted and its row committed, and the row does not fit. -/
theorem longName_not_fits :
    Grammar longPackaging ∧
      parseRequirements longPackaging (fun _ => none) longName.toUTF8 = .ok longParsed ∧
      ∃ db, JobRepository.completeParse expiredLease longParsed "normalized.txt" (fun _ => "item") 50
        parsingFile = .ok (true, db) ∧ ¬ParsedRowsFit expiredLease db := by
  obtain ⟨db, hdb⟩ := parsingFile_commits longParsed rfl
  refine ⟨longPackaging_grammar, longName_parsed, db, hdb, ?_⟩
  intro hfit
  obtain ⟨hrows, -⟩ := completeParse_written hdb
  have hrow : JobRepository.itemRow "f" "item" ⟨1, longName, [], "", none, longName⟩ ∈
      db.requirementItems := by
    rw [Table.mem_def, hrows]
    exact List.mem_append_right _ (.head _)
  have hname : Fits (.itemName, some longName) := hfit.items _ hrow rfl _ (.head _)
  have hlength : longName.length = 256 := String.length_ofList.trans List.length_replicate
  have hfits := fits_some.1 hname
  rw [hlength] at hfits
  exact absurd hfits (by decide)

end WheelForge.Jobs
