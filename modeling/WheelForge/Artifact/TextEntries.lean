import WheelForge.Artifact.Models
import WheelForge.Parser.Requirements

/-!
# The text entries of an artifact

README, the requirement files, the comparison table, the report, the manifest and the scripts, as the
builder generates them from the context, the intended packages and the manifest.
-/

set_option autoImplicit false

namespace WheelForge.Artifact

open WheelForge.Build (ValidationIssue)
open WheelForge.Parser (normalizeNewlines)
open WheelForge.Python
open WheelForge.Resolver (VersionChange)
open WheelForge.Validation (Bytes)

/-- `_text`. -/
def text (value : Text) : Bytes := (String.ofList (normalizeNewlines value)).toUTF8.data.toList

/-- `html.escape(value, quote=True)`. -/
def escape (value : Text) : Text :=
  value.flatMap fun c =>
    if c = '&' then "&amp;".toList
    else if c = '<' then "&lt;".toList
    else if c = '>' then "&gt;".toList
    else if c = '"' then "&quot;".toList
    else if c = '\'' then "&#x27;".toList
    else [c]

variable (lib : BuilderLibraries) (context : ArtifactBuildContext)

/-! ## Version changes -/

/-- `_version_change_key`. -/
def versionChangeKey (change : VersionChange) : List String :=
  [lib.canonicalizeName change.package, change.originalConstraint,
    (change.originalVersion.map (·.str)).getD "", (change.resolvedVersion.map (·.str)).getD "",
    change.kind.value, (change.source.map (·.value)).getD "", change.reason]

/-- `sorted(context.version_changes, key=_version_change_key)`. -/
def sortedChanges : List VersionChange :=
  context.versionChanges.insertionSort fun a b => versionChangeKey lib a ≤ versionChangeKey lib b

/-- A field as `csv.writer` writes it. -/
def csvField (field : String) : Text :=
  if field.toList.any fun c => c ∈ [',', '"', '\n', '\r'] then
    '"' :: (field.toList.flatMap fun c => if c = '"' then ['"', '"'] else [c]) ++ ['"']
  else field.toList

/-- `writer.writerow(fields)`. -/
def csvRow (fields : List String) : Text := [','].intercalate (fields.map csvField) ++ ['\n']

/-- `_comparison_csv`. -/
def comparisonCsv : Bytes :=
  let header := csvRow ["package", "original_constraint", "original_version", "resolved_version",
    "change_kind", "source", "reason"]
  -- the columns of a change are its sort key
  text (header ++ (sortedChanges lib context).flatMap fun change =>
    csvRow (versionChangeKey lib change))

/-! ## README and report -/

/-- `_readme`. -/
def readme (complete : Bool) : Text :=
  "# WheelForge offline artifact\n\nStatus: ".toList ++
    (if complete then "COMPLETE" else "PARTIAL - NOT INSTALLABLE").toList ++ "\n\n".toList ++
    staticValidationMessage.toList ++ "\n".toList

/-- The row of a change in the report, which leaves the original version out. -/
def changeRow (change : VersionChange) : Text :=
  let cells := [lib.canonicalizeName change.package, change.originalConstraint,
    (change.resolvedVersion.map (·.str)).getD "", change.kind.value,
    (change.source.map (·.value)).getD "", change.reason]
  "<tr>".toList ++
    (cells.flatMap fun value => "<td>".toList ++ escape value.toList ++ "</td>".toList) ++
    "</tr>".toList

/-- The item of an issue in the report. -/
def issueItem (issue : ValidationIssue) : Text :=
  "<li>".toList ++ escape (issue.code.value.toList ++ ": ".toList ++ issue.package.toList ++
    ": ".toList ++ issue.detail.toList) ++ "</li>".toList

/-- `_html_report`. -/
def htmlReport (manifest : Manifest) (complete : Bool) : Text :=
  let status := if complete then "Complete artifact" else "Partial artifact - not installable"
  let changes := (sortedChanges lib context).flatMap (changeRow lib)
  let items := manifest.validationIssues.flatMap issueItem
  let issues := if items = [] then "<li>None</li>".toList else items
  "<!doctype html><html><head><meta charset=\"utf-8\">".toList ++
    "<title>WheelForge build report</title></head>".toList ++
    "<body><h1>".toList ++ status.toList ++ "</h1><p>".toList ++
    escape staticValidationMessage.toList ++ "</p>".toList ++
    "<h2>Dependency version comparison</h2><table><thead><tr><th>Package</th>".toList ++
    "<th>Original</th><th>Resolved</th><th>Change</th><th>Source</th><th>Reason</th>".toList ++
    "</tr></thead><tbody>".toList ++ changes ++
    "</tbody></table><h2>Static validation issues</h2><ul>".toList ++ issues ++
    "</ul></body></html>\n".toList

/-! ## Scripts -/

/-- The first lines of both Linux scripts. -/
def linuxLocation : Text :=
  "#!/bin/sh\nset -eu\n".toList ++
    "SCRIPT_DIR=$(CDPATH= cd -P -- \"$(dirname -- \"$0\")\" && pwd) || ".toList ++
    "\x7b echo 'Artifact directory is unavailable' >&2; exit 1; \x7d\n".toList ++
    "cd -- \"$SCRIPT_DIR\" || ".toList ++
    "\x7b echo 'Artifact directory is unavailable' >&2; exit 1; \x7d\n".toList

/-- `_linux_scripts`. -/
def linuxScripts (complete : Bool) : Except BuildError (Text × Text) := do
  if complete = false then
    let failure := linuxLocation ++
      "echo 'Incomplete artifact: installation is unavailable.' >&2\nexit 1\n".toList
    return (failure, failure)
  else
    let machine ← orRaise
      ([("X86_64", "x86_64"), ("AARCH64", "aarch64")].lookup context.target.architecture)
      (.raised "KeyError")
    let version := context.target.pythonVersion.toList.flatMap fun c =>
      if c = '.' then [',', ' '] else [c]
    let checks := linuxLocation ++
      "[ \"$(uname -s)\" = \"Linux\" ] || ".toList ++
      "\x7b echo 'Target OS mismatch' >&2; exit 1; \x7d\n".toList ++
      "[ \"$(uname -m)\" = \"".toList ++ machine.toList ++ "\" ] || ".toList ++
      "\x7b echo 'Target architecture mismatch' >&2; exit 1; \x7d\n".toList ++
      "python -c \"import sys; raise SystemExit(sys.version_info[:2] != (".toList ++ version ++
      "))\" || \x7b echo 'Target Python mismatch' >&2; exit 1; \x7d\n".toList
    return (checks ++ ("python -m pip install --no-index --find-links packages " ++
        "--require-hashes -r requirements-resolved.txt\n").toList,
      checks ++ "sha256sum -c checksums.sha256\npython -m pip check\n".toList)

/-- The first lines of both Windows scripts. -/
def windowsLocation : Text :=
  "@echo off\r\nsetlocal\r\n".toList ++
    "cd /d \"%~dp0\" || (echo Artifact directory is unavailable 1>&2 & exit /b 1)\r\n".toList

/-- `_windows_scripts`. -/
def windowsScripts (complete : Bool) : Except BuildError (Text × Text) := do
  if complete = false then
    let failure := windowsLocation ++
      "echo Incomplete artifact: installation is unavailable. 1>&2\r\nexit /b 1\r\n".toList
    return (failure, failure)
  else
    let machine ← orRaise ([("AMD64", "AMD64"), ("ARM64", "ARM64")].lookup
      context.target.architecture) (.raised "KeyError")
    match context.target.pythonVersion.toList.splitOn '.' with
    | [major, minor] =>
        let checks := windowsLocation ++
          ("if /I not \"%OS%\"==\"Windows_NT\" " ++
            "(echo Target OS mismatch 1>&2 & exit /b 1)\r\n").toList ++
          ("python -c \"import platform,sys; raise SystemExit(" ++
            "platform.machine().upper() != '").toList ++
          machine.toList ++ "' or sys.version_info[:2] != (".toList ++ major ++ ", ".toList ++
          minor ++ "))\"\r\n".toList ++
          ("if errorlevel 1 (echo Target architecture or Python mismatch 1>&2 & " ++
            "exit /b 1)\r\n").toList
        return (checks ++ ("python -m pip install --no-index --find-links packages " ++
            "--require-hashes -r requirements-resolved.txt\r\n").toList,
          checks ++ "python -m pip check\r\n".toList)
    | _ => .error (.raised "ValueError")

/-- The names of the two scripts. -/
def scriptNames : String × String :=
  if context.target.os = "LINUX" then ("install.sh", "verify.sh") else ("install.bat", "verify.bat")

/-- The texts of the two scripts. -/
def scriptTexts (complete : Bool) : Except BuildError (Text × Text) :=
  if context.target.os = "LINUX" then linuxScripts context complete
  else windowsScripts context complete

/-- `_scripts`. -/
def scripts (complete : Bool) : Except BuildError (List (String × Bytes)) := do
  let values ← scriptTexts context complete
  return [((scriptNames context).1, text values.1), ((scriptNames context).2, text values.2)]

/-! ## The entries -/

/-- The entry of a package in `requirements-resolved.txt`. -/
def requirementEntry (item : IntendedPackage) : Text :=
  item.name.toList ++ "==".toList ++ item.version.toList ++ " --hash=sha256:".toList ++
    item.sha256.toList ++ ['\n']

/-- `_text_entries`. -/
def textEntries (intended : List IntendedPackage) (manifest : Manifest) (complete : Bool) :
    Except BuildError (List (String × Bytes)) := do
  let entries := [("README.md", text (readme complete)),
    ("requirements-original.txt", text context.originalRequirements.toList),
    ("requirements-resolved.txt", text (intended.flatMap requirementEntry)),
    ("version-comparison.csv", comparisonCsv lib context),
    ("build-report.html", text (htmlReport lib context manifest complete)),
    ("manifest.json", text (dumps manifest.toJson ++ ['\n']))]
  let scriptEntries ← scripts context complete
  return entries ++ scriptEntries

end WheelForge.Artifact
