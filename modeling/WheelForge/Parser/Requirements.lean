import Mathlib.Data.List.Sort
import WheelForge.Pep440.Packaging
import WheelForge.Python.Text
import WheelForge.Parser.Models

/-!
# The requirements parser

A requirements file is decoded, split into logical lines and read line by line. Each line is checked
for syntax that pip reads differently, handed to the packaging library and rendered again; lines of
one package and one marker are merged. The GBK decoder is a parameter.

A Python string may hold lone surrogates, which UTF-8 input cannot contain but the escapes of a quoted
marker value can. The strings of the model hold none.
-/

set_option autoImplicit false

namespace WheelForge.Parser

open WheelForge.Python
open WheelForge.Pep440

/-- What `parse_requirements` raises: its own errors, and the `SyntaxError` that reading a quoted
marker value raises. -/
inductive ParserException where
  | parse (e : RequirementsParseError)
  | syntaxError
deriving DecidableEq, Repr

def maxInputBytes : Nat := 512 * 1024

def maxLogicalLines : Nat := 2000

/-! ## Scanners -/

/-- `[a-z]` with `re.IGNORECASE`. -/
def letterIgnoringCase (c : Char) : Bool :=
  ('a' ≤ c && c ≤ 'z') || ('A' ≤ c && c ≤ 'Z') || c.toNat ∈ [0x130, 0x131, 0x17f, 0x212a]

/-- `--?[a-z]` at the beginning. -/
def argumentAt : Text → Bool
  | '-' :: '-' :: c :: _ => letterIgnoringCase c
  | '-' :: c :: _ => letterIgnoringCase c
  | _ => false

/-- `_PIP_ARGUMENT.search`. -/
def pipArgument (text : Text) : Bool :=
  argumentAt text || text.tails.any fun tail =>
    match tail with
    | c :: rest => (c = ' ' || c = '\t') && argumentAt rest
    | [] => false

/-- `.*$`: no newline but one at the very end. -/
def restOfLine (text : Text) : Bool :=
  text.dropWhile (· ≠ '\n') = [] || text.dropWhile (· ≠ '\n') = ['\n']

/-- The index of the `#` in the first match of `(^|\s+)#.*$`; `start` says that the text stands at
its start or after white space. -/
def commentFrom : Bool → Text → Option Nat
  | _, [] => none
  | start, c :: rest =>
      if start && c = '#' && restOfLine rest then some 0
      else (commentFrom (isSpace c) rest).map (· + 1)

/-- `_PIP_FILE_COMMENT.search`. -/
def pipFileComment (line : Text) : Option Nat := commentFrom true line

/-- `[A-Z0-9_]`. -/
def variableChar (c : Char) : Bool :=
  ('A' ≤ c && c ≤ 'Z') || ('0' ≤ c && c ≤ '9') || c = '_'

/-- `\$\{([A-Z0-9_]+)\}` at the beginning: the name. -/
def variableAt : Text → Option Text
  | '$' :: '{' :: rest =>
      if rest.takeWhile variableChar ≠ [] ∧ (rest.dropWhile variableChar).head? = some '}' then
        some (rest.takeWhile variableChar)
      else none
  | _ => none

/-- `_PIP_ENVIRONMENT_VARIABLE.findall`; two matches cannot overlap. -/
def environmentVariables (line : Text) : List Text := line.tails.filterMap variableAt

/-- The characters outside ASCII whose case folding holds ASCII characters. -/
def foldTable : List (Nat × Text) :=
  [(0xdf, ['s', 's']), (0x130, ['i', Char.ofNat 0x307]), (0x149, [Char.ofNat 0x2bc, 'n']),
    (0x17f, ['s']), (0x1f0, ['j', Char.ofNat 0x30c]), (0x1e96, ['h', Char.ofNat 0x331]),
    (0x1e97, ['t', Char.ofNat 0x308]), (0x1e98, ['w', Char.ofNat 0x30a]),
    (0x1e99, ['y', Char.ofNat 0x30a]), (0x1e9a, ['a', Char.ofNat 0x2be]), (0x1e9e, ['s', 's']),
    (0x212a, ['k']), (0xfb00, ['f', 'f']), (0xfb01, ['f', 'i']), (0xfb02, ['f', 'l']),
    (0xfb03, ['f', 'f', 'i']), (0xfb04, ['f', 'f', 'l']), (0xfb05, ['s', 't']),
    (0xfb06, ['s', 't'])]

/-- `casefold()`, as far as it can yield ASCII characters: the other characters that it changes fold
to characters outside ASCII. -/
def casefoldChar (c : Char) : Text :=
  if 'A' ≤ c ∧ c ≤ 'Z' then [c.toLower]
  else
    match foldTable.find? (·.1 = c.toNat) with
    | some (_, folded) => folded
    | none => [c]

def casefold (text : Text) : Text := text.flatMap casefoldChar

def archiveSuffixes : List Text :=
  [".whl".toList, ".tar.gz".toList, ".tar.bz2".toList, ".tgz".toList, ".zip".toList]

def vcsPrefixes : List Text := ["git+".toList, "hg+".toList, "svn+".toList, "bzr+".toList]

/-- `_UNSUPPORTED_LINE_SEPARATORS`. -/
def unsupportedLineSeparator (c : Char) : Bool :=
  c.toNat ∈ [0xb, 0xc, 0x1c, 0x1d, 0x1e, 0x85, 0x2028, 0x2029]

/-- `_find_unquoted` from a position with the open quote, whether the character is escaped, and the
character before. -/
def findUnquotedFrom (target : Char) (whitespaceBefore : Bool) :
    Option Char → Bool → Option Char → Text → Option Nat
  | _, _, _, [] => none
  | some quote, escaped, _, c :: rest =>
      (if escaped then findUnquotedFrom target whitespaceBefore (some quote) false (some c) rest
      else if c = '\\' then findUnquotedFrom target whitespaceBefore (some quote) true (some c) rest
      else if c = quote then findUnquotedFrom target whitespaceBefore none false (some c) rest
      else findUnquotedFrom target whitespaceBefore (some quote) false (some c) rest).map (· + 1)
  | none, escaped, previous, c :: rest =>
      if c = '"' ∨ c = '\'' then
        (findUnquotedFrom target whitespaceBefore (some c) escaped (some c) rest).map (· + 1)
      else if c = target ∧
          (whitespaceBefore = false ∨ previous = some ' ' ∨ previous = some '\t') then some 0
      else (findUnquotedFrom target whitespaceBefore none escaped (some c) rest).map (· + 1)

/-- `_find_unquoted(text, target, whitespace_before=...)`. -/
def findUnquoted (text : Text) (target : Char) (whitespaceBefore : Bool) : Option Nat :=
  findUnquotedFrom target whitespaceBefore none false none text

/-! ## Lines -/

/-- `raise UnsupportedRequirementSyntax(...)` under a condition. -/
def rejectIf (condition : Bool) (message : String) (lineNo : Nat) (originalText : String) :
    Except ParserException Unit :=
  if condition then .error (.parse (.unsupportedSyntax message lineNo originalText)) else .ok ()

/-- The part of a requirement before its marker. -/
def requirementPart (text : Text) : Text :=
  rstrip (match findUnquoted text ';' false with
    | none => text
    | some index => text.take index)

/-- `_WINDOWS_DRIVE_PATH.match`. -/
def windowsDrivePath : Text → Bool
  | c :: ':' :: d :: _ => letterIgnoringCase c && (d = '\\' || d = '/')
  | _ => false

/-- A direct reference or a URL. -/
def isReference (part : Text) : Bool :=
  '@' ∈ part || "://".toList <:+: casefold part || "file:".toList <+: casefold part

/-- A local path or a package archive. -/
def isLocalPath (part : Text) : Bool :=
  ["/".toList, "./".toList, "../".toList, "~/".toList, "\\".toList].any (fun p => p <+: part) ||
    windowsDrivePath part || '/' ∈ part || '\\' ∈ part ||
    archiveSuffixes.any fun suffix => suffix <:+ casefold part

/-- `_reject_unsafe_text`. -/
def rejectUnsafeText (text : Text) (lineNo : Nat) (originalText : String) :
    Except ParserException Unit := do
  let part := requirementPart text
  rejectIf (pipArgument part) "pip options and file includes are not supported" lineNo originalText
  rejectIf (isReference part) "direct references and URLs are not supported" lineNo originalText
  rejectIf (vcsPrefixes.any fun vcs => vcs <:+: casefold part)
    "version control references are not supported" lineNo originalText
  rejectIf (isLocalPath part) "local paths and package archives are not supported" lineNo originalText

/-- The text of a line without its comment. -/
def withoutComment (stripped : Text) : Text :=
  match findUnquoted stripped '#' true with
  | some index => rstrip (stripped.take index)
  | none => stripped

/-- `_requirement_text`: the requirement of a line, if it holds one. -/
def requirementText (originalText : String) (lineNo : Nat) :
    Except ParserException (Option Text) := do
  rejectIf (originalText.toList.any unsupportedLineSeparator)
    "additional line separators recognized by pip are not supported" lineNo originalText
  rejectIf (originalText.toList.any (· = '\x00')) "NUL bytes are not supported" lineNo originalText
  let stripped := strip originalText.toList
  if stripped = [] ∨ stripped.head? = some '#' then return none
  let stripped := withoutComment stripped
  rejectIf (stripped.getLast? = some '\\') "line continuation is not supported" lineNo originalText
  if stripped = [] then return none
  rejectUnsafeText stripped lineNo originalText
  return some stripped

/-- `_ensure_pip_file_safe`. -/
def ensurePipFileSafe (line : Text) (lineNo : Nat) (originalText : String) :
    Except ParserException Unit := do
  rejectIf (pipFileComment line).isSome
    "markers that pip interprets as comments are not supported" lineNo originalText
  rejectIf ((line.splitOn ' ').any fun token => token.head? = some '-')
    "markers that pip interprets as options are not supported" lineNo originalText
  rejectIf (environmentVariables line ≠ [])
    "pip environment variable expansion is not supported" lineNo originalText

/-! ## Constraints -/

/-- A specifier that the parser accepts, with its version. -/
structure Constraint where
  specifier : Specifier
  version : Version
deriving DecidableEq, Repr

/-- `_SUPPORTED_OPERATORS`. -/
def supported : Operator → Bool
  | .equal | .greaterEqual | .lessEqual | .compatible => true
  | .notEqual | .greater | .less | .arbitrary => false

/-- `_OPERATOR_ORDER`. -/
def operatorOrder : Operator → Nat
  | .equal => 0
  | .compatible => 1
  | .greaterEqual => 2
  | .lessEqual => 3
  | .notEqual | .greater | .less | .arbitrary => 4

/-- The sort key of `_deduplicate_specifiers`. -/
def Constraint.sortKey (c : Constraint) : Nat ×ₗ VersionKey ×ₗ String :=
  toLex (operatorOrder c.specifier.operator, toLex (c.version.key, c.specifier.version))

/-- `_deduplicate_specifiers`. -/
def deduplicateSpecifiers (constraints : List Constraint) : List Constraint :=
  constraints.dedup.insertionSort fun c d => c.sortKey ≤ d.sortKey

/-- `max(versions)`, the first of the greatest. -/
def maxVersion (versions : List Version) : Option Version :=
  versions.foldl (fun best v =>
    match best with
    | none => some v
    | some best => if best.key < v.key then some v else some best) none

/-- `_constraints_conflict`. -/
def constraintsConflict (pk : Packaging) (constraints : List Constraint) : Bool :=
  let exactCandidates := Version.distinct
    ((constraints.filter (·.specifier.operator = .equal)).map Constraint.version)
  if exactCandidates ≠ [] then
    !exactCandidates.any fun candidate =>
      constraints.all fun c => pk.contains c.specifier candidate
  else
    let lowerCandidates := (constraints.filter fun c =>
      c.specifier.operator = .greaterEqual ∨ c.specifier.operator = .compatible).map
        Constraint.version
    match maxVersion lowerCandidates with
    | none => false
    | some candidate => constraints.any fun c => !pk.contains c.specifier candidate

/-- `_format_specifiers`. -/
def formatSpecifiers (constraints : List Constraint) : String :=
  ",".intercalate (constraints.map fun c => c.specifier.str)

/-- The loop of `_parse_line` over the specifiers. -/
def readConstraints (pk : Packaging) (lineNo : Nat) (originalText : String) :
    List Specifier → Except ParserException (List Constraint)
  | [] => .ok []
  | specifier :: rest => do
      rejectIf (!supported specifier.operator || '*' ∈ specifier.version.toList)
        ("specifier " ++ specifier.str ++ " is not supported") lineNo originalText
      match pk.version specifier.version with
      | none => .error (.parse (.invalidRequirement ("invalid version in " ++ specifier.str) lineNo
          originalText))
      | some version =>
          let constraints ← readConstraints pk lineNo originalText rest
          return ⟨specifier, version⟩ :: constraints

/-- `_parse_line`. -/
def parseLine (pk : Packaging) (text : Text) (lineNo : Nat) (originalText : String) :
    Except ParserException (Requirement × List Constraint) :=
  match pk.requirement (String.ofList text) with
  | .error .syntaxError => .error .syntaxError
  | .error .invalidRequirement =>
      .error (.parse (.invalidRequirement "invalid PEP 508 requirement" lineNo originalText))
  | .ok parsed => do
      rejectIf parsed.url.isSome "direct references and URLs are not supported" lineNo originalText
      let constraints ← readConstraints pk lineNo originalText parsed.specifier
      return (parsed, deduplicateSpecifiers constraints)

/-! ## Items -/

/-- `tuple(sorted(names))`. -/
def sortNames (names : List String) : List String := names.insertionSort fun a b => a ≤ b

/-- `_format_item` before the marker. -/
def formatHead (name : String) (extras : List String) (specifier : String) : String :=
  name ++ (if extras = [] then "" else "[" ++ ",".intercalate extras ++ "]") ++ specifier

/-- `_format_item`. -/
def formatItem (item : RequirementItem) : String :=
  formatHead item.name item.extras item.specifier ++
    (match item.marker with
      | none => ""
      | some marker => "; " ++ marker)

/-- An item with the constraints that its specifier renders. -/
structure Entry where
  item : RequirementItem
  constraints : List Constraint
deriving DecidableEq, Repr

/-- The key under which lines are merged. -/
def Entry.key (entry : Entry) : String × Option String := (entry.item.name, entry.item.marker)

/-- The body of the loop over the lines up to the look-up of the key: the entry of one line. -/
def readLine (pk : Packaging) (lineNo : Nat) (originalText : String) :
    Except ParserException (Option Entry) := do
  match ← requirementText originalText lineNo with
  | none => return none
  | some text =>
      let (parsed, constraints) ← parseLine pk text lineNo originalText
      let item : RequirementItem := {
        lineNo := lineNo
        name := pk.canonicalizeName parsed.name
        extras := sortNames (parsed.extras.map pk.canonicalizeName)
        specifier := formatSpecifiers constraints
        marker := parsed.marker
        originalText := originalText }
      ensurePipFileSafe (formatItem item).toList lineNo originalText
      if constraintsConflict pk constraints then
        .error (.parse (.constraintConflict item.name lineNo originalText))
      return some ⟨item, constraints⟩

/-- An entry merged into the entry that already has its key. -/
def mergeInto (existing entry : Entry) : Entry :=
  let merged := deduplicateSpecifiers (existing.constraints ++ entry.constraints)
  { item := { existing.item with
      extras := sortNames (existing.item.extras ++ entry.item.extras).dedup
      specifier := formatSpecifiers merged }
    constraints := merged }

/-- The rest of the loop body: a new key appends, a known key merges. -/
def addEntry (pk : Packaging) (entries : List Entry) (entry : Entry) :
    Except ParserException (List Entry) :=
  match entries.find? (·.key = entry.key) with
  | none => .ok (entries ++ [entry])
  | some existing =>
      if constraintsConflict pk
          (deduplicateSpecifiers (existing.constraints ++ entry.constraints)) then
        .error (.parse (.duplicateConflict entry.item.name entry.item.lineNo entry.item.originalText
          existing.item.lineNo))
      else .ok (entries.map fun e => if e.key = entry.key then mergeInto e entry else e)

/-- The loop over the lines. -/
def readLines (pk : Packaging) : Nat → List String → List Entry → Except ParserException (List Entry)
  | _, [], entries => .ok entries
  | lineNo, originalText :: rest, entries => do
      match ← readLine pk lineNo originalText with
      | none => readLines pk (lineNo + 1) rest entries
      | some entry =>
          let entries ← addEntry pk entries entry
          readLines pk (lineNo + 1) rest entries

/-- The checks of the normalized lines. -/
def ensureItemsSafe : List RequirementItem → Except ParserException Unit
  | [] => .ok ()
  | item :: rest => do
      ensurePipFileSafe (formatItem item).toList item.lineNo item.originalText
      ensureItemsSafe rest

/-! ## Files -/

/-- `text.replace("\r\n", "\n").replace("\r", "\n")`. -/
def normalizeNewlines : Text → Text
  | [] => []
  | '\r' :: '\n' :: rest => '\n' :: normalizeNewlines rest
  | '\r' :: rest => '\n' :: normalizeNewlines rest
  | c :: rest => c :: normalizeNewlines rest

theorem normalizeNewlines_of_notMem {text : Text} (h : '\r' ∉ text) :
    normalizeNewlines text = text := by
  induction text with
  | nil => rfl
  | cons c cs ih =>
      rw [List.mem_cons, not_or] at h
      unfold normalizeNewlines
      split
      · next heq => cases heq
      · next heq => exact absurd (List.cons.inj heq).1.symm h.1
      · next heq => exact absurd (List.cons.inj heq).1.symm h.1
      · next heq =>
          obtain ⟨rfl, rfl⟩ := List.cons.inj heq
          rw [ih h.2]

/-- `_logical_lines`. -/
def logicalLines (text : Text) : List Text :=
  if text = [] then []
  else if text.getLast? = some '\n' then (text.splitOn '\n').dropLast
  else text.splitOn '\n'

/-- `_decode`: the text and its encoding. -/
def decode (gbk : ByteArray → Option String) (raw : ByteArray) : Option (String × String) :=
  let decoded :=
    if raw.data.toList.take 3 = [0xef, 0xbb, 0xbf] then
      (String.fromUTF8? (raw.extract 3 raw.size)).map (·, "utf-8-sig")
    else (String.fromUTF8? raw).map (·, "utf-8")
  decoded.or ((gbk raw).map (·, "gbk"))

/-- The logical lines of the decoded input. -/
def inputLines (gbk : ByteArray → Option String) (raw : ByteArray) :
    Except ParserException (List String × String) :=
  if raw.size > maxInputBytes then .error (.parse (.inputTooLarge raw.size maxInputBytes))
  else
    match decode gbk raw with
    | none => .error (.parse .decode)
    | some (text, encoding) =>
        let lines := (logicalLines (normalizeNewlines text.toList)).map String.ofList
        if lines.length > maxLogicalLines then
          .error (.parse (.tooManyLines lines.length maxLogicalLines))
        else .ok (lines, encoding)

/-- `"\n".join(normalized_lines) + "\n"`. -/
def normalizedText (items : List RequirementItem) : String :=
  "\n".intercalate (items.map formatItem) ++ "\n"

/-- `parse_requirements`. -/
def parseRequirements (pk : Packaging) (gbk : ByteArray → Option String) (raw : ByteArray) :
    Except ParserException ParsedRequirements := do
  let (lines, encoding) ← inputLines gbk raw
  let entries ← readLines pk 1 lines []
  let items := entries.map Entry.item
  ensureItemsSafe items
  return ⟨normalizedText items, items, encoding⟩

end WheelForge.Parser
