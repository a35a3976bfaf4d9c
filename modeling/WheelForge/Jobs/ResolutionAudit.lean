import WheelForge.Jobs.Repository
import WheelForge.Jobs.SanitizedSize
import WheelForge.Python.JsonSize

/-!
# Audits of a resolution

`_resolution_summary_audit`, `_package_resolution_audits` and the accumulator that keeps as many
entries as fit a section. The accumulator's count of bytes is the size of what it keeps
(`Accounts`), so that the audits stay within their limits while the counters are below 10^50; and
since sanitizing lengthens a text by half at most, the encoded summary still fits the context column
of a log row.
-/

set_option autoImplicit false

namespace WheelForge.Jobs

open WheelForge.Python
open WheelForge.Resolver (ResolutionResult ResolutionAttempt CandidateRejection CandidateSelection
  PackageSource CompatibilityFailureCode)

/-! ## Encoding -/

mutual

/-- What `json.dumps` writes for a value; a number is written by its literal. -/
def encoded : Json → JsonValue
  | .null => .null
  | .bool b => .bool b
  | .number text => .float text.toList
  | .string s => .string (Str.ofString s)
  | .array items => .array (encodedItems items)
  | .object fields => .object (encodedFields fields)

def encodedItems : List Json → List JsonValue
  | [] => []
  | item :: items => encoded item :: encodedItems items

def encodedFields : List (String × Json) → List (Str × JsonValue)
  | [] => []
  | (key, value) :: fields => (Str.ofString key, encoded value) :: encodedFields fields

end

/-- `_json_bytes`. -/
def jsonBytes (value : Json) : Nat := dumpsSize (encoded value)

/-- `json.dumps(sanitize_structure(context), ensure_ascii=True, default=str)`. -/
def encodeContext (alnum : Char → Bool) (context : Json) : String :=
  String.ofList (dumps false (encoded (sanitizeStructure alnum 2000 context)))

/-- `str(n)` of a counter, as a JSON number. -/
def counter (n : Nat) : Json := .number (toString n)

/-- The size of a character between the quotes of its encoding. -/
def charBytes (c : Char) : Nat := jsonBytes (.string (String.ofList [c])) - 2

/-- The loop of `_json_string_prefix`. -/
def stringPrefix (byteLimit : Nat) : Nat → Text → Text
  | _, [] => []
  | size, c :: text =>
      if size + charBytes c > byteLimit then []
      else c :: stringPrefix byteLimit (size + charBytes c) text

/-- `_json_string_prefix`. -/
def jsonStringPrefix (value : String) (byteLimit : Nat) : String :=
  String.ofList (stringPrefix byteLimit 0 value.toList)

/-! ## The accumulator -/

def buildAuditSectionBytes : Nat := 2600

def auditSectionBytes : Nat := 1600

def maxBuildAuditBytes : Nat := 6000

def maxPackageAuditBytes : Nat := 4096

/-- `_AuditAccumulator`. -/
structure AuditAccumulator where
  entries : List Json
  total : Nat
  omitted : Nat
  byteLimit : Nat
  encodedBytes : Nat

namespace AuditAccumulator

/-- `_AuditAccumulator(byte_limit)`. -/
def empty (byteLimit : Nat) : AuditAccumulator := ⟨[], 0, 0, byteLimit, 2⟩

def add (a : AuditAccumulator) (entry : Json) : AuditAccumulator :=
  let encodedBytes := jsonBytes entry
  let separatorBytes := if a.entries.isEmpty then 0 else 2
  if a.encodedBytes + separatorBytes + encodedBytes > a.byteLimit then
    { a with total := a.total + 1, omitted := a.omitted + 1 }
  else
    { a with
      total := a.total + 1
      entries := a.entries ++ [entry]
      encodedBytes := a.encodedBytes + (separatorBytes + encodedBytes) }

end AuditAccumulator

section Audits

variable (alnum : Char → Bool) (canonicalizeName : String → String)

/-- `attempt.failure.value if attempt.failure else None`. -/
def failureValue : Option CompatibilityFailureCode → Json
  | some failure => .string failure.value
  | none => .null

/-! ## The summary -/

def summarySelection (selection : CandidateSelection) : Json :=
  .object
    [("package", .string (jsonStringPrefix (canonicalizeName selection.package) 120)),
      ("version", .string (jsonStringPrefix selection.version.str 120))]

def summaryAttempt (attempt : ResolutionAttempt) : Json :=
  .object
    [("source", .string attempt.source.value),
      ("failure", failureValue attempt.failure),
      ("reason", .string (jsonStringPrefix (sanitizeText alnum attempt.reason 1000) 240)),
      ("selectionCount", counter attempt.selections.length),
      ("selections", .array ((attempt.selections.take 2).map (summarySelection canonicalizeName)))]

def summaryRejection (item : CandidateRejection) : Json :=
  .object
    [("package", .string (jsonStringPrefix (canonicalizeName item.package) 120)),
      ("version", .string (jsonStringPrefix item.version 120)),
      ("source", .string item.source.value),
      ("code", .string item.code.value),
      ("reason", .string (jsonStringPrefix (sanitizeText alnum item.reason 1000) 240))]

/-- `attempts` of `_resolution_summary_audit`. -/
def summaryAttempts (resolution : ResolutionResult) : AuditAccumulator :=
  (resolution.attempts.map (summaryAttempt alnum canonicalizeName)).foldl AuditAccumulator.add
    (.empty buildAuditSectionBytes)

/-- `rejections` of `_resolution_summary_audit`. -/
def summaryRejections (resolution : ResolutionResult) : AuditAccumulator :=
  (resolution.rejections.map (summaryRejection alnum canonicalizeName)).foldl AuditAccumulator.add
    (.empty buildAuditSectionBytes)

def summaryAudit (resolution : ResolutionResult) (attempts rejections : AuditAccumulator) : Json :=
  .object
    [("version", .number "1"),
      ("totals", .object
        [("attempts", counter attempts.total),
          ("rejections", counter (rejections.total + resolution.rejectionsOmitted))]),
      ("attempts", .array attempts.entries),
      ("rejections", .array rejections.entries),
      ("omitted", .object
        [("attempts", counter attempts.omitted),
          ("rejections", counter (rejections.omitted + resolution.rejectionsOmitted))]),
      ("truncated", .object
        [("observations", .bool resolution.observationsTruncated),
          ("rejections", counter resolution.rejectionsOmitted)])]

/-- `_resolution_summary_audit`; `none` is its `ValueError`. -/
def resolutionSummaryAudit (resolution : ResolutionResult) : Option Json :=
  let audit := summaryAudit resolution (summaryAttempts alnum canonicalizeName resolution)
    (summaryRejections alnum canonicalizeName resolution)
  if jsonBytes audit > maxBuildAuditBytes then none else some audit

/-! ## The packages -/

/-- `accumulators[package].add(entry)` for a package that is requested. -/
def addFor (requested : List String) (package : String) (entry : Json)
    (accumulators : String → AuditAccumulator) : String → AuditAccumulator :=
  if package ∈ requested then
    Function.update accumulators package ((accumulators package).add entry)
  else accumulators

def packageAttempt (attempt : ResolutionAttempt) (selection : CandidateSelection) : Json :=
  .object
    [("source", .string attempt.source.value),
      ("failure", failureValue attempt.failure),
      ("selectedVersion", .string (jsonStringPrefix selection.version.str 200)),
      ("reason", .string (jsonStringPrefix (sanitizeText alnum attempt.reason 1000) 300))]

def packageRejection (item : CandidateRejection) : Json :=
  .object
    [("version", .string (jsonStringPrefix item.version 200)),
      ("source", .string item.source.value),
      ("code", .string item.code.value),
      ("reason", .string (jsonStringPrefix (sanitizeText alnum item.reason 1000) 300))]

/-- `attempts` of `_package_resolution_audits`. -/
def packageAttempts (requested : List String) (resolution : ResolutionResult) :
    String → AuditAccumulator :=
  resolution.attempts.foldl
    (fun accumulators attempt =>
      attempt.selections.foldl
        (fun accumulators selection =>
          addFor requested (canonicalizeName selection.package)
            (packageAttempt alnum attempt selection) accumulators)
        accumulators)
    fun _ => .empty auditSectionBytes

/-- `rejections` of `_package_resolution_audits`. -/
def packageRejections (requested : List String) (resolution : ResolutionResult) :
    String → AuditAccumulator :=
  resolution.rejections.foldl
    (fun accumulators item =>
      addFor requested (canonicalizeName item.package) (packageRejection alnum item) accumulators)
    fun _ => .empty auditSectionBytes

def packageAudit (package : String) (attempts rejections : AuditAccumulator)
    (resolution : ResolutionResult) : Json :=
  .object
    [("version", .number "1"),
      ("package", .string (jsonStringPrefix package 300)),
      ("attempts", .array attempts.entries),
      ("rejections", .array rejections.entries),
      ("omitted", .object
        [("attempts", counter attempts.omitted), ("rejections", counter rejections.omitted)]),
      ("truncated", .object
        [("observations", .bool resolution.observationsTruncated),
          ("globalRejections", counter resolution.rejectionsOmitted)])]

/-- `_build_package_resolution_audit`; `none` is its `ValueError`. -/
def buildPackageResolutionAudit (package : String) (attempts rejections : AuditAccumulator)
    (resolution : ResolutionResult) : Option Json :=
  let audit := packageAudit package attempts rejections resolution
  if jsonBytes audit > maxPackageAuditBytes then none else some audit

/-- `_package_resolution_audits`, with the look-up of a package by its canonical name; `none` is its
`ValueError`. -/
def packageResolutionAudits (resolution : ResolutionResult) (packages : List String) :
    Option (String → Json) :=
  let requested := packages.map canonicalizeName
  let build := fun package =>
    buildPackageResolutionAudit package
      (packageAttempts alnum canonicalizeName requested resolution package)
      (packageRejections alnum canonicalizeName requested resolution package) resolution
  if requested.all fun package => (build package).isSome then
    some fun package => (build (canonicalizeName package)).getD .null
  else none

end Audits

/-! ## Sizes -/

/-- The size of a character in an encoded string. -/
def charSize (c : Char) : Nat := escapeSize (CodePoint.ofChar c)

/-- The size of an encoded string without its quotes. -/
def textBytes (s : String) : Nat := cost charSize s.toList

theorem jsonBytes_string (s : String) : jsonBytes (.string s) = textBytes s + 2 := by
  have hcost : cost escapeSize (Str.ofString s) = textBytes s := by
    unfold Str.ofString Str.ofText textBytes cost
    rw [List.map_map]
    rfl
  change (dumpsString (Str.ofString s)).length = _
  rw [dumpsString_length, hcost]

theorem encodedItems_eq (items : List Json) : encodedItems items = items.map encoded := by
  induction items with
  | nil => rfl
  | cons item items ih => rw [encodedItems, ih, List.map_cons]

/-- The size of an array is that of its items, the brackets and the separators. -/
theorem jsonBytes_array (items : List Json) :
    jsonBytes (.array items) = (items.map jsonBytes).sum + 2 * (items.length - 1) + 2 := by
  unfold jsonBytes
  rw [encoded, dumpsSize_array, encodedItems_eq, List.length_map, List.map_map]
  rfl

/-- The size of a key and its value. -/
def fieldBytes (field : String × Json) : Nat := textBytes field.1 + 4 + jsonBytes field.2

theorem jsonBytes_object (fields : List (String × Json)) :
    jsonBytes (.object fields) = (fields.map fieldBytes).sum + 2 * (fields.length - 1) + 2 := by
  have hfields : encodedFields fields = fields.map fun f => (Str.ofString f.1, encoded f.2) := by
    induction fields with
    | nil => rfl
    | cons field fields ih => rw [encodedFields, ih, List.map_cons]
  have hmember : ∀ f : String × Json, memberSize (Str.ofString f.1, encoded f.2) = fieldBytes f := by
    intro f
    have hkey := jsonBytes_string f.1
    change (dumpsString (Str.ofString f.1)).length = _ at hkey
    unfold memberSize fieldBytes jsonBytes
    dsimp only
    omega
  unfold jsonBytes
  rw [encoded, dumpsSize_object, hfields, List.length_map, List.map_map]
  congr 3
  exact List.map_congr_left fun f _ => hmember f

theorem jsonBytes_counter {n k : Nat} (hk : 0 < k) (h : n < 10 ^ k) : jsonBytes (counter n) ≤ k := by
  change (toString n).toList.length ≤ k
  rw [String.length_toList, Nat.toString_eq_repr]
  exact (Nat.length_repr_le_iff hk).2 h

theorem jsonBytes_counter_pos (n : Nat) : 1 ≤ jsonBytes (counter n) := by
  change 1 ≤ (toString n).toList.length
  rw [String.length_toList, Nat.toString_eq_repr]
  exact Nat.length_repr_pos

theorem charBytes_eq (c : Char) : charBytes c = charSize c := by
  unfold charBytes
  rw [jsonBytes_string, Nat.add_sub_cancel, textBytes, String.toList_ofList]
  exact Nat.add_zero _

theorem stringPrefix_cost (byteLimit size : Nat) (text : Text) (h : size ≤ byteLimit) :
    size + cost charSize (stringPrefix byteLimit size text) ≤ byteLimit := by
  induction text generalizing size with
  | nil => exact h
  | cons c text ih =>
      unfold stringPrefix
      split
      · exact h
      · next hfits =>
          have hrest := ih (size + charBytes c) (by omega)
          rw [cost_cons, ← charBytes_eq]
          omega

/-- A prefix takes no more bytes than it may. -/
theorem jsonStringPrefix_bytes (value : String) (byteLimit : Nat) :
    textBytes (jsonStringPrefix value byteLimit) ≤ byteLimit := by
  unfold jsonStringPrefix textBytes
  rw [String.toList_ofList]
  have h := stringPrefix_cost byteLimit 0 value.toList (Nat.zero_le _)
  omega

/-! ## What the accumulator accounts for -/

/-- The accumulator has met `n` entries: its bytes are the size of those it keeps, and it counts
the others. -/
structure Accounts (a : AuditAccumulator) (n : Nat) : Prop where
  bytes : a.encodedBytes = jsonBytes (.array a.entries)
  within : a.encodedBytes ≤ a.byteLimit
  total : a.total = n
  omitted : a.entries.length + a.omitted = n

theorem accounts_empty {byteLimit : Nat} (h : 2 ≤ byteLimit) : Accounts (.empty byteLimit) 0 :=
  ⟨rfl, h, rfl, rfl⟩

theorem jsonBytes_concat (entries : List Json) (entry : Json) :
    jsonBytes (.array (entries ++ [entry])) =
      jsonBytes (.array entries) + ((if entries.isEmpty then 0 else 2) + jsonBytes entry) := by
  rw [jsonBytes_array, jsonBytes_array, List.map_append, List.sum_append, List.length_append]
  cases entries with
  | nil =>
      simp
      omega
  | cons first entries =>
      simp
      omega

/-- The bytes of the section with an entry appended. -/
def AuditAccumulator.bytesWith (a : AuditAccumulator) (entry : Json) : Nat :=
  a.encodedBytes + ((if a.entries.isEmpty then 0 else 2) + jsonBytes entry)

/-- An entry is omitted, or it fits and is kept. -/
theorem AuditAccumulator.add_cases (a : AuditAccumulator) (entry : Json) :
    a.add entry = { a with total := a.total + 1, omitted := a.omitted + 1 } ∨
      a.bytesWith entry ≤ a.byteLimit ∧ a.add entry =
        { a with
          total := a.total + 1
          entries := a.entries ++ [entry]
          encodedBytes := a.bytesWith entry } := by
  unfold AuditAccumulator.add AuditAccumulator.bytesWith
  generalize (if a.entries.isEmpty then 0 else 2) = separatorBytes
  dsimp only
  by_cases hover : a.encodedBytes + separatorBytes + jsonBytes entry > a.byteLimit
  · exact .inl (if_pos hover)
  · exact .inr ⟨by omega, if_neg hover⟩

theorem Accounts.add {a : AuditAccumulator} {n : Nat} (h : Accounts a n) (entry : Json) :
    Accounts (a.add entry) (n + 1) := by
  have htotal := congrArg (· + 1) h.total
  have homitted := h.omitted
  rcases a.add_cases entry with hadd | ⟨hfits, hadd⟩
  · rw [hadd]
    exact ⟨h.bytes, h.within, htotal, congrArg (· + 1) homitted⟩
  · rw [hadd]
    refine ⟨?_, hfits, htotal, ?_⟩
    · unfold AuditAccumulator.bytesWith
      rw [jsonBytes_concat, h.bytes]
    · dsimp only
      rw [List.length_append, List.length_singleton]
      omega

theorem add_byteLimit (a : AuditAccumulator) (entry : Json) :
    (a.add entry).byteLimit = a.byteLimit := by
  rcases a.add_cases entry with hadd | ⟨-, hadd⟩ <;> rw [hadd]

/-- The accumulator keeps entries that it was given. -/
theorem mem_add {a : AuditAccumulator} {entry kept : Json} (h : kept ∈ (a.add entry).entries) :
    kept ∈ a.entries ∨ kept = entry := by
  rcases a.add_cases entry with hadd | ⟨-, hadd⟩
  · rw [hadd] at h
    exact .inl h
  · rw [hadd] at h
    simpa using h

theorem accounts_foldl {a : AuditAccumulator} {n : Nat} (h : Accounts a n) (entries : List Json) :
    Accounts (entries.foldl AuditAccumulator.add a) (n + entries.length) := by
  induction entries generalizing a n with
  | nil => exact h
  | cons entry entries ih =>
      rw [List.foldl_cons, List.length_cons, ← Nat.add_assoc, Nat.add_right_comm]
      exact ih (h.add entry)

theorem foldl_byteLimit (a : AuditAccumulator) (entries : List Json) :
    (entries.foldl AuditAccumulator.add a).byteLimit = a.byteLimit := by
  induction entries generalizing a with
  | nil => rfl
  | cons entry entries ih => rw [List.foldl_cons, ih, add_byteLimit]

theorem mem_foldl {a : AuditAccumulator} {entries : List Json} {kept : Json}
    (h : kept ∈ (entries.foldl AuditAccumulator.add a).entries) :
    kept ∈ a.entries ∨ kept ∈ entries := by
  induction entries generalizing a with
  | nil => exact .inl h
  | cons entry entries ih =>
      rcases ih h with hkept | hkept
      · rcases mem_add hkept with hkept | rfl
        · exact .inl hkept
        · exact .inr List.mem_cons_self
      · exact .inr (List.mem_cons_of_mem _ hkept)

/-! ## Sanitizing an audit -/

theorem charSize_lightMask : LightMask charSize where
  pos c := escapeSize_pos _
  light := by
    have hlight : (['*', ':', '=', ' '].all fun c => charSize c = 1) = true := by decide
    simpa only [List.all_eq_true, decide_eq_true_eq] using hlight

/-- A sanitized string is longer by half at most. -/
theorem sanitizeText_bytes (alnum : Char → Bool) (value : String) (limit : Nat) :
    2 * textBytes (sanitizeText alnum value limit) ≤ 3 * textBytes value := by
  have hredact : 2 * cost charSize (redact alnum value.toList) ≤ 3 * cost charSize value.toList :=
    redact_cost charSize_lightMask (by decide) value.toList
  have htake := cost_take_le charSize limit (redact alnum value.toList)
  unfold textBytes sanitizeText
  rw [String.toList_ofList]
  omega

/-- A value with three tenths to spare. -/
def Spares (alnum : Char → Bool) (value : Json) : Prop :=
  7 * jsonBytes (sanitizeStructure alnum 2000 value) ≤ 10 * jsonBytes value

theorem encodeContext_length (alnum : Char → Bool) (context : Json) :
    (encodeContext alnum context).length = jsonBytes (sanitizeStructure alnum 2000 context) := by
  unfold encodeContext jsonBytes dumpsSize
  rw [String.length_ofList]

theorem sanitize_array (alnum : Char → Bool) (items : List Json) :
    sanitizeStructure alnum 2000 (.array items) =
      .array (items.map (sanitizeStructure alnum 2000)) := by
  rw [sanitizeStructure, sanitizeItems_eq]

theorem spares_array {alnum : Char → Bool} {items : List Json}
    (h : ∀ item ∈ items, Spares alnum item) : Spares alnum (.array items) := by
  have hsum : 7 * ((items.map (sanitizeStructure alnum 2000)).map jsonBytes).sum ≤
      10 * (items.map jsonBytes).sum := by
    induction items with
    | nil => simp
    | cons item items ih =>
        obtain ⟨hitem, hitems⟩ := List.forall_mem_cons.1 h
        have hrest := ih hitems
        unfold Spares at hitem
        simp only [List.map_cons, List.sum_cons]
        omega
  unfold Spares
  rw [sanitize_array, jsonBytes_array, jsonBytes_array, List.length_map]
  omega

/-- A constant of the program. -/
theorem sanitize_constant {alnum : Char → Bool} {value : String}
    (h : value.toList.all plainChar = true ∧ value.length ≤ 2000) :
    sanitizeStructure alnum 2000 (.string value) = .string value := by
  rw [sanitizeStructure, sanitizeText_of_plain h.1 h.2]

/-- The values of the enumerations stay as they are, and have their size. -/
theorem source_constant (source : PackageSource) :
    (source.value.toList.all plainChar = true ∧ source.value.length ≤ 2000) ∧
      6 ≤ jsonBytes (.string source.value) := by
  cases source <;> decide

theorem failure_constant (failure : CompatibilityFailureCode) :
    (failure.value.toList.all plainChar = true ∧ failure.value.length ≤ 2000) ∧
      4 ≤ jsonBytes (.string failure.value) := by
  cases failure <;> decide

theorem code_constant (code : Resolver.CandidateRejectionCode) :
    (code.value.toList.all plainChar = true ∧ code.value.length ≤ 2000) ∧
      8 ≤ jsonBytes (.string code.value) := by
  cases code <;> decide

theorem sanitize_source (alnum : Char → Bool) (source : PackageSource) :
    sanitizeStructure alnum 2000 (.string source.value) = .string source.value :=
  sanitize_constant (source_constant source).1

theorem sanitize_failure (alnum : Char → Bool) (failure : Option CompatibilityFailureCode) :
    sanitizeStructure alnum 2000 (failureValue failure) = failureValue failure := by
  cases failure with
  | none => rfl
  | some failure => exact sanitize_constant (failure_constant failure).1

theorem sanitize_code (alnum : Char → Bool) (code : Resolver.CandidateRejectionCode) :
    sanitizeStructure alnum 2000 (.string code.value) = .string code.value :=
  sanitize_constant (code_constant code).1

theorem plain_keys :
    PlainKeys ["package", "version"] ∧
      PlainKeys ["source", "failure", "reason", "selectionCount", "selections"] ∧
      PlainKeys ["package", "version", "source", "code", "reason"] ∧
      PlainKeys ["version", "totals", "attempts", "rejections", "omitted", "truncated"] ∧
      PlainKeys ["attempts", "rejections"] ∧ PlainKeys ["observations", "rejections"] ∧
      PlainKeys ["audit"] := by
  decide

/-- The sizes of the keys of the audits. -/
theorem key_bytes :
    textBytes "package" = 7 ∧ textBytes "version" = 7 ∧ textBytes "source" = 6 ∧
      textBytes "failure" = 7 ∧ textBytes "reason" = 6 ∧ textBytes "selectionCount" = 14 ∧
      textBytes "selections" = 10 ∧ textBytes "code" = 4 ∧ textBytes "totals" = 6 ∧
      textBytes "attempts" = 8 ∧ textBytes "rejections" = 10 ∧ textBytes "omitted" = 7 ∧
      textBytes "truncated" = 9 ∧ textBytes "observations" = 12 ∧
      textBytes "globalRejections" = 16 ∧ textBytes "audit" = 5 := by
  decide

/-- A selection of an attempt, before and after. -/
theorem summarySelection_bytes (alnum : Char → Bool) (canonicalizeName : String → String)
    (selection : CandidateSelection) :
    ∃ size ≤ 240, jsonBytes (summarySelection canonicalizeName selection) = 30 + size ∧
      2 * jsonBytes (sanitizeStructure alnum 2000 (summarySelection canonicalizeName selection)) ≤
        60 + 3 * size := by
  obtain ⟨hplain, -⟩ := plain_keys
  obtain ⟨hpackage, hversion, -⟩ := key_bytes
  have hname := jsonStringPrefix_bytes (canonicalizeName selection.package) 120
  have hstr := jsonStringPrefix_bytes selection.version.str 120
  unfold summarySelection
  rw [sanitizeStructure_object (by exact hplain)]
  generalize jsonStringPrefix (canonicalizeName selection.package) 120 = name at *
  generalize jsonStringPrefix selection.version.str 120 = version at *
  have hname' := sanitizeText_bytes alnum name 2000
  have hversion' := sanitizeText_bytes alnum version 2000
  refine ⟨textBytes name + textBytes version, by omega, ?_, ?_⟩ <;>
  · simp only [jsonBytes_object, fieldBytes, List.map_cons, List.map_nil, List.sum_cons,
      List.sum_nil, List.length_cons, List.length_nil, sanitizeStructure, jsonBytes_string]
    omega

/-- The first selections of an attempt, before and after. -/
theorem summarySelections_bytes (alnum : Char → Bool) (canonicalizeName : String → String)
    {selections : List CandidateSelection} (h : selections.length ≤ 2) :
    ∃ size, ∃ n ≤ 2, size ≤ 240 * n ∧
      32 * n + size ≤ jsonBytes (.array (selections.map (summarySelection canonicalizeName))) ∧
      2 * jsonBytes (sanitizeStructure alnum 2000
          (.array (selections.map (summarySelection canonicalizeName)))) ≤
        2 * jsonBytes (.array (selections.map (summarySelection canonicalizeName))) + size := by
  rw [sanitize_array, jsonBytes_array, jsonBytes_array]
  match selections with
  | [] => exact ⟨0, 0, by simp⟩
  | [a] =>
      obtain ⟨size, hsize, hbefore, hafter⟩ := summarySelection_bytes alnum canonicalizeName a
      refine ⟨size, 1, by omega, by omega, ?_, ?_⟩ <;>
      · simp only [List.map_cons, List.map_nil, List.sum_cons, List.sum_nil, List.length_cons,
          List.length_nil]
        omega
  | [a, b] =>
      obtain ⟨size, hsize, hbefore, hafter⟩ := summarySelection_bytes alnum canonicalizeName a
      obtain ⟨size', hsize', hbefore', hafter'⟩ := summarySelection_bytes alnum canonicalizeName b
      refine ⟨size + size', 2, by omega, by omega, ?_, ?_⟩ <;>
      · simp only [List.map_cons, List.map_nil, List.sum_cons, List.sum_nil, List.length_cons,
          List.length_nil]
        omega
  | _ :: _ :: _ :: _ =>
      simp only [List.length_cons] at h
      omega

theorem failure_bytes (failure : Option CompatibilityFailureCode) :
    4 ≤ jsonBytes (failureValue failure) := by
  cases failure with
  | none => exact le_of_eq (by rfl)
  | some failure => exact (failure_constant failure).2

/-- An attempt of the summary is long enough for its texts to grow. -/
theorem spares_summaryAttempt (alnum : Char → Bool) (canonicalizeName : String → String)
    (attempt : ResolutionAttempt) : Spares alnum (summaryAttempt alnum canonicalizeName attempt) := by
  obtain ⟨-, hplain, -⟩ := plain_keys
  obtain ⟨-, -, hsource, hfailure, hreason, hcount, hselections, -⟩ := key_bytes
  have htwo : (attempt.selections.take 2).length ≤ 2 := by simp
  obtain ⟨size, n, hn, hsize, hbefore, hafter⟩ :=
    summarySelections_bytes alnum canonicalizeName htwo
  have hprefix := jsonStringPrefix_bytes (sanitizeText alnum attempt.reason 1000) 240
  have hdigits := jsonBytes_counter_pos attempt.selections.length
  have hs := (source_constant attempt.source).2
  have hf := failure_bytes attempt.failure
  unfold Spares summaryAttempt
  rw [sanitizeStructure_object (by exact hplain)]
  simp only [jsonBytes_object, fieldBytes, List.map_cons, List.map_nil, List.sum_cons,
    List.sum_nil, List.length_cons, List.length_nil, sanitize_source, sanitize_failure]
  generalize jsonStringPrefix (sanitizeText alnum attempt.reason 1000) 240 = reason at *
  have hreason' := sanitizeText_bytes alnum reason 2000
  simp only [counter, sanitizeStructure, jsonBytes_string] at hafter hbefore hdigits ⊢
  omega

/-- A rejection of the summary is long enough for its texts to grow. -/
theorem spares_summaryRejection (alnum : Char → Bool) (canonicalizeName : String → String)
    (item : CandidateRejection) : Spares alnum (summaryRejection alnum canonicalizeName item) := by
  obtain ⟨-, -, hplain, -⟩ := plain_keys
  obtain ⟨hpackage, hversion, hsource, -, hreason, -, -, hcode, -⟩ := key_bytes
  have hname := jsonStringPrefix_bytes (canonicalizeName item.package) 120
  have hstr := jsonStringPrefix_bytes item.version 120
  have hprefix := jsonStringPrefix_bytes (sanitizeText alnum item.reason 1000) 240
  have hs := (source_constant item.source).2
  have hc := (code_constant item.code).2
  unfold Spares summaryRejection
  rw [sanitizeStructure_object (by exact hplain)]
  simp only [jsonBytes_object, fieldBytes, List.map_cons, List.map_nil, List.sum_cons,
    List.sum_nil, List.length_cons, List.length_nil, sanitize_source, sanitize_code]
  generalize jsonStringPrefix (canonicalizeName item.package) 120 = name at *
  generalize jsonStringPrefix item.version 120 = version at *
  generalize jsonStringPrefix (sanitizeText alnum item.reason 1000) 240 = reason at *
  have hname' := sanitizeText_bytes alnum name 2000
  have hversion' := sanitizeText_bytes alnum version 2000
  have hreason' := sanitizeText_bytes alnum reason 2000
  simp only [sanitizeStructure, jsonBytes_string] at *
  omega

/-! ## The summary fits -/

section Summary

variable {alnum : Char → Bool} {canonicalizeName : String → String} {resolution : ResolutionResult}

theorem summaryAttempts_accounts :
    Accounts (summaryAttempts alnum canonicalizeName resolution) resolution.attempts.length := by
  have h := accounts_foldl (@accounts_empty buildAuditSectionBytes (by decide))
    (resolution.attempts.map (summaryAttempt alnum canonicalizeName))
  rwa [List.length_map, Nat.zero_add] at h

theorem summaryRejections_accounts :
    Accounts (summaryRejections alnum canonicalizeName resolution)
      resolution.rejections.length := by
  have h := accounts_foldl (@accounts_empty buildAuditSectionBytes (by decide))
    (resolution.rejections.map (summaryRejection alnum canonicalizeName))
  rwa [List.length_map, Nat.zero_add] at h

/-- A section is not larger than its limit. -/
theorem Accounts.section_le {a : AuditAccumulator} {n : Nat} (h : Accounts a n) :
    jsonBytes (.array a.entries) ≤ a.byteLimit := by
  rw [← h.bytes]
  exact h.within

theorem summaryAttempts_spares :
    Spares alnum (.array (summaryAttempts alnum canonicalizeName resolution).entries) := by
  apply spares_array
  intro entry hentry
  rcases mem_foldl hentry with h | h
  · cases h
  · obtain ⟨attempt, -, rfl⟩ := List.mem_map.1 h
    exact spares_summaryAttempt alnum canonicalizeName attempt

theorem summaryRejections_spares :
    Spares alnum (.array (summaryRejections alnum canonicalizeName resolution).entries) := by
  apply spares_array
  intro entry hentry
  rcases mem_foldl hentry with h | h
  · cases h
  · obtain ⟨item, -, rfl⟩ := List.mem_map.1 h
    exact spares_summaryRejection alnum canonicalizeName item

/-- The five counters of the summary, each with 51 digits at most. -/
structure SummaryCounters (resolution : ResolutionResult) : Prop where
  attempts : resolution.attempts.length < 10 ^ 50
  rejections : resolution.rejections.length < 10 ^ 50
  omitted : resolution.rejectionsOmitted < 10 ^ 50

theorem counter_bytes {n : Nat} (h : n < 10 ^ 51) : jsonBytes (counter n) ≤ 51 :=
  jsonBytes_counter (by decide) h

theorem bool_bytes (b : Bool) : jsonBytes (.bool b) ≤ 5 := by
  cases b <;> decide

/-- What surrounds the two sections of the summary. -/
theorem summaryAudit_bytes (h : SummaryCounters resolution) {attempts rejections : AuditAccumulator}
    (hattempts : Accounts attempts resolution.attempts.length)
    (hrejections : Accounts rejections resolution.rejections.length) :
    jsonBytes (summaryAudit resolution attempts rejections) ≤
        500 + jsonBytes (.array attempts.entries) + jsonBytes (.array rejections.entries) ∧
      jsonBytes (sanitizeStructure alnum 2000 (summaryAudit resolution attempts rejections)) ≤
        500 + jsonBytes (sanitizeStructure alnum 2000 (.array attempts.entries)) +
          jsonBytes (sanitizeStructure alnum 2000 (.array rejections.entries)) := by
  obtain ⟨-, -, -, hplain, hcounts, htruncated, -⟩ := plain_keys
  obtain ⟨-, hversion, -, -, -, -, -, -, htotals, hkeyAttempts, hkeyRejections, homitted,
    hkeyTruncated, hobservations, -⟩ := key_bytes
  obtain ⟨h1, h2, h3⟩ := h
  have hta := counter_bytes (n := attempts.total) (by have := hattempts.total; omega)
  have htr := counter_bytes (n := rejections.total + resolution.rejectionsOmitted)
    (by have := hrejections.total; omega)
  have hoa := counter_bytes (n := attempts.omitted) (by have := hattempts.omitted; omega)
  have hor := counter_bytes (n := rejections.omitted + resolution.rejectionsOmitted)
    (by have := hrejections.omitted; omega)
  have hr := counter_bytes (n := resolution.rejectionsOmitted) (by omega)
  have hone : jsonBytes (.number "1") = 1 := by decide
  have hbool := bool_bytes resolution.observationsTruncated
  unfold summaryAudit
  rw [sanitizeStructure_object (by exact hplain)]
  simp only [List.map_cons, List.map_nil]
  rw [sanitizeStructure_object (by exact hcounts), sanitizeStructure_object (by exact hcounts),
    sanitizeStructure_object (by exact htruncated)]
  simp only [counter] at *
  simp only [sanitizeStructure, List.map_cons, List.map_nil, jsonBytes_object, fieldBytes,
    List.sum_cons, List.sum_nil, List.length_cons, List.length_nil]
  constructor <;> omega

/-- The summary is within its limit, and so is its sanitized text in a log row. -/
theorem resolutionSummaryAudit_fits (h : SummaryCounters resolution) :
    ∃ audit, resolutionSummaryAudit alnum canonicalizeName resolution = some audit ∧
      jsonBytes audit ≤ maxBuildAuditBytes ∧
      (encodeContext alnum (.object [("audit", audit)])).length ≤ 8000 := by
  have hattempts := @summaryAttempts_accounts alnum canonicalizeName resolution
  have hrejections := @summaryRejections_accounts alnum canonicalizeName resolution
  have hsection := hattempts.section_le
  have hsection' := hrejections.section_le
  have hlimit : (summaryAttempts alnum canonicalizeName resolution).byteLimit = 2600 :=
    foldl_byteLimit _ _
  have hlimit' : (summaryRejections alnum canonicalizeName resolution).byteLimit = 2600 :=
    foldl_byteLimit _ _
  have hspares := @summaryAttempts_spares alnum canonicalizeName resolution
  have hspares' := @summaryRejections_spares alnum canonicalizeName resolution
  obtain ⟨hbytes, hsanitized⟩ :=
    @summaryAudit_bytes alnum resolution h _ _ hattempts hrejections
  have hfits : jsonBytes (summaryAudit resolution
      (summaryAttempts alnum canonicalizeName resolution)
      (summaryRejections alnum canonicalizeName resolution)) ≤ maxBuildAuditBytes := by
    unfold maxBuildAuditBytes
    omega
  refine ⟨_, if_neg (by omega), hfits, ?_⟩
  obtain ⟨-, -, -, -, -, -, hkey⟩ := plain_keys
  obtain ⟨-, -, -, -, -, -, -, -, -, -, -, -, -, -, -, haudit⟩ := key_bytes
  rw [encodeContext_length, sanitizeStructure_object (by exact hkey)]
  unfold Spares at hspares hspares'
  simp only [jsonBytes_object, fieldBytes, List.map_cons, List.map_nil, List.sum_cons,
    List.sum_nil, List.length_cons, List.length_nil]
  omega

end Summary

/-! ## The audits of the packages fit -/

section Packages

variable {alnum : Char → Bool} {canonicalizeName : String → String} {resolution : ResolutionResult}
  {requested : List String} {package : String}

/-- The selections of a package in all attempts. -/
def selectionsOf (canonicalizeName : String → String) (resolution : ResolutionResult)
    (package : String) : List CandidateSelection :=
  (resolution.attempts.flatMap ResolutionAttempt.selections).filter fun selection =>
    canonicalizeName selection.package = package

/-- The rejections of a package. -/
def rejectionsOf (canonicalizeName : String → String) (resolution : ResolutionResult)
    (package : String) : List CandidateRejection :=
  resolution.rejections.filter fun item => canonicalizeName item.package = package

/-- One accumulator of the loops: it meets the entries of its package. -/
theorem foldl_addFor_accounts (hpackage : package ∈ requested) {byteLimit : Nat}
    (hlimit : 2 ≤ byteLimit) (items : List (String × Json)) :
    Accounts (items.foldl (fun accumulators item => addFor requested item.1 item.2 accumulators)
        (fun _ => .empty byteLimit) package) (items.countP fun item => item.1 = package) ∧
      (items.foldl (fun accumulators item => addFor requested item.1 item.2 accumulators)
        (fun _ => .empty byteLimit) package).byteLimit = byteLimit := by
  have hfrom : ∀ (accumulators : String → AuditAccumulator) (n : Nat),
      Accounts (accumulators package) n → (accumulators package).byteLimit = byteLimit →
      Accounts (items.foldl (fun accumulators item => addFor requested item.1 item.2 accumulators)
          accumulators package) (n + items.countP fun item => item.1 = package) ∧
        (items.foldl (fun accumulators item => addFor requested item.1 item.2 accumulators)
          accumulators package).byteLimit = byteLimit := by
    induction items with
    | nil =>
        intro accumulators n haccounts hbytes
        exact ⟨haccounts, hbytes⟩
    | cons item items ih =>
        intro accumulators n haccounts hbytes
        rw [List.foldl_cons, List.countP_cons]
        by_cases hitem : item.1 = package
        · have happly : addFor requested item.1 item.2 accumulators package =
              (accumulators package).add item.2 := by
            unfold addFor
            rw [hitem, if_pos hpackage, Function.update_self]
          have hnext := ih (addFor requested item.1 item.2 accumulators) (n + 1)
            (by rw [happly]; exact haccounts.add item.2)
            (by rw [happly, add_byteLimit, hbytes])
          simp only [hitem, decide_true, if_true]
          rw [hitem, Nat.add_right_comm, Nat.add_assoc] at hnext
          exact hnext
        · have happly : addFor requested item.1 item.2 accumulators package =
              accumulators package := by
            unfold addFor
            split
            · exact Function.update_of_ne (Ne.symm hitem) _ _
            · rfl
          have hnext := ih (addFor requested item.1 item.2 accumulators) n
            (by rw [happly]; exact haccounts) (by rw [happly, hbytes])
          simpa [hitem] using hnext
  have h := hfrom (fun _ => .empty byteLimit) 0 (accounts_empty hlimit) rfl
  rwa [Nat.zero_add] at h

theorem packageAttempts_accounts (hpackage : package ∈ requested) :
    Accounts (packageAttempts alnum canonicalizeName requested resolution package)
        (selectionsOf canonicalizeName resolution package).length ∧
      (packageAttempts alnum canonicalizeName requested resolution package).byteLimit = 1600 := by
  have hlimit : 2 ≤ auditSectionBytes := by decide
  have h := foldl_addFor_accounts hpackage hlimit
    (resolution.attempts.flatMap fun attempt => attempt.selections.map fun selection =>
      (canonicalizeName selection.package, packageAttempt alnum attempt selection))
  have hcount : (resolution.attempts.flatMap fun attempt => attempt.selections.map fun selection =>
      (canonicalizeName selection.package, packageAttempt alnum attempt selection)).countP
        (fun item => item.1 = package) =
      (selectionsOf canonicalizeName resolution package).length := by
    unfold selectionsOf
    rw [← List.countP_eq_length_filter, List.countP_flatMap, List.countP_flatMap]
    congr 1
    refine List.map_congr_left fun attempt _ => ?_
    dsimp only [Function.comp_apply]
    rw [List.countP_map]
    rfl
  rw [hcount, List.foldl_flatMap] at h
  simp only [List.foldl_map] at h
  exact h

theorem packageRejections_accounts (hpackage : package ∈ requested) :
    Accounts (packageRejections alnum canonicalizeName requested resolution package)
        (rejectionsOf canonicalizeName resolution package).length ∧
      (packageRejections alnum canonicalizeName requested resolution package).byteLimit =
        1600 := by
  have hlimit : 2 ≤ auditSectionBytes := by decide
  have h := foldl_addFor_accounts hpackage hlimit
    (resolution.rejections.map fun item =>
      (canonicalizeName item.package, packageRejection alnum item))
  rw [List.countP_map, List.countP_eq_length_filter, List.foldl_map] at h
  exact h

/-- What surrounds the two sections of the audit of a package. -/
theorem packageAudit_bytes {attempts rejections : AuditAccumulator}
    (hattempts : attempts.omitted < 10 ^ 51) (hrejections : rejections.omitted < 10 ^ 51)
    (homitted : resolution.rejectionsOmitted < 10 ^ 51) :
    jsonBytes (packageAudit package attempts rejections resolution) ≤
      700 + jsonBytes (.array attempts.entries) + jsonBytes (.array rejections.entries) := by
  obtain ⟨hpackage, hversion, -, -, -, -, -, -, -, hkeyAttempts, hkeyRejections, hkeyOmitted,
    hkeyTruncated, hobservations, hglobal, -⟩ := key_bytes
  have hname := jsonStringPrefix_bytes package 300
  have ha := counter_bytes hattempts
  have hr := counter_bytes hrejections
  have ho := counter_bytes homitted
  have hone : jsonBytes (.number "1") = 1 := by decide
  have hbool := bool_bytes resolution.observationsTruncated
  unfold packageAudit
  simp only [List.map_cons, List.map_nil, jsonBytes_object, fieldBytes, jsonBytes_string,
    List.sum_cons, List.sum_nil, List.length_cons, List.length_nil]
  omega

end Packages

/-- The counters of the audits. -/
structure CountersBelow (canonicalizeName : String → String) (resolution : ResolutionResult)
    (packages : List String) : Prop extends SummaryCounters resolution where
  selections : ∀ package ∈ packages.map canonicalizeName,
    (selectionsOf canonicalizeName resolution package).length < 10 ^ 50

/-- The audits never exceed their limits, and the context of a log row keeps the summary. The
accumulators account for what they keep and omit: an attempt counts once in the summary, and in the
audit of a package once for each of its selections of the package. -/
theorem resolution_audits {alnum : Char → Bool} {canonicalizeName : String → String}
    {resolution : ResolutionResult} {packages : List String}
    (h : CountersBelow canonicalizeName resolution packages) :
    (∃ audit, resolutionSummaryAudit alnum canonicalizeName resolution = some audit ∧
      jsonBytes audit ≤ maxBuildAuditBytes ∧
      ∀ repo : JobRepository, repo.encodeContext = encodeContext alnum →
        repo.safeContext (some (.object [("audit", audit)])) =
          match repo.jsonLoads (encodeContext alnum (.object [("audit", audit)])) with
          | some decoded => .ok (some decoded)
          | none => .error (.value "context is not JSON")) ∧
    (∃ audits, packageResolutionAudits alnum canonicalizeName resolution packages = some audits ∧
      ∀ package ∈ packages, jsonBytes (audits package) ≤ maxPackageAuditBytes) ∧
    Accounts (summaryAttempts alnum canonicalizeName resolution) resolution.attempts.length ∧
    Accounts (summaryRejections alnum canonicalizeName resolution) resolution.rejections.length ∧
    ∀ package ∈ packages.map canonicalizeName,
      Accounts (packageAttempts alnum canonicalizeName (packages.map canonicalizeName) resolution
        package) (selectionsOf canonicalizeName resolution package).length ∧
      Accounts (packageRejections alnum canonicalizeName (packages.map canonicalizeName) resolution
        package) (rejectionsOf canonicalizeName resolution package).length := by
  refine ⟨?_, ?_, summaryAttempts_accounts, summaryRejections_accounts, ?_⟩
  · obtain ⟨audit, haudit, hfits, hcontext⟩ :=
      @resolutionSummaryAudit_fits alnum canonicalizeName resolution h.toSummaryCounters
    refine ⟨audit, haudit, hfits, ?_⟩
    intro repo hrepo
    unfold JobRepository.safeContext
    rw [hrepo]
    exact if_pos hcontext
  · have hbuild : ∀ package ∈ packages.map canonicalizeName,
        jsonBytes (packageAudit package
          (packageAttempts alnum canonicalizeName (packages.map canonicalizeName) resolution package)
          (packageRejections alnum canonicalizeName (packages.map canonicalizeName) resolution
            package) resolution) ≤ maxPackageAuditBytes := by
      intro package hpackage
      obtain ⟨hattempts, hlimit⟩ :=
        @packageAttempts_accounts alnum canonicalizeName resolution _ _ hpackage
      obtain ⟨hrejections, hlimit'⟩ :=
        @packageRejections_accounts alnum canonicalizeName resolution _ _ hpackage
      have hsection := hattempts.section_le
      have hsection' := hrejections.section_le
      have hselections := h.selections package hpackage
      have hfilter : (rejectionsOf canonicalizeName resolution package).length ≤
          resolution.rejections.length := List.length_filter_le _ _
      have htotal := h.rejections
      have homitted := h.omitted
      have hcount := hattempts.omitted
      have hcount' := hrejections.omitted
      refine (packageAudit_bytes (by omega) (by omega) (by omega)).trans ?_
      unfold maxPackageAuditBytes
      omega
    have hall : (packages.map canonicalizeName).all (fun package =>
        (buildPackageResolutionAudit package
          (packageAttempts alnum canonicalizeName (packages.map canonicalizeName) resolution package)
          (packageRejections alnum canonicalizeName (packages.map canonicalizeName) resolution
            package) resolution).isSome) = true := by
      rw [List.all_eq_true]
      intro package hpackage
      unfold buildPackageResolutionAudit
      dsimp only
      rw [if_neg (by have := hbuild package hpackage; omega)]
      rfl
    refine ⟨_, if_pos hall, ?_⟩
    intro package hpackage
    have hfits := hbuild _ (List.mem_map_of_mem hpackage)
    unfold buildPackageResolutionAudit
    dsimp only
    rw [if_neg (by omega), Option.getD_some]
    exact hfits
  · intro package hpackage
    exact ⟨(packageAttempts_accounts hpackage).1, (packageRejections_accounts hpackage).1⟩

/-- A resolution whose one attempt selects a package twice, for two requirements of one name. -/
def twiceSelected : ResolutionResult where
  reportVersion := "1"
  packages := []
  attempts := [⟨[⟨"demo", .ofMajor 1⟩,
    ⟨"demo", .ofMajor 2⟩], .pypi, none, "resolved"⟩]
  rejections := []
  changes := []
  source := some .pypi
  rejectionsOmitted := 0
  observationsTruncated := false

/-- Twenty such attempts, which no audit has the room for. -/
def crowded : ResolutionResult :=
  { twiceSelected with
    attempts := List.replicate 20 ⟨[⟨"demo", .ofMajor 1⟩, ⟨"demo", .ofMajor 2⟩], .pypi,
      some .strictResolution, "no compatible distribution"⟩ }

theorem crowded_audits :
    (∃ audit, resolutionSummaryAudit (fun _ => false) id crowded = some audit ∧
      jsonBytes audit ≤ maxBuildAuditBytes) ∧
    0 < (summaryAttempts (fun _ => false) id crowded).omitted ∧
    (summaryAttempts (fun _ => false) id crowded).entries.length +
      (summaryAttempts (fun _ => false) id crowded).omitted = 20 := by
  have hcounters : CountersBelow id crowded ["demo"] :=
    ⟨⟨by decide, by decide, by decide⟩, by decide⟩
  obtain ⟨⟨audit, haudit, hbytes, -⟩, -, haccounts, -⟩ :=
    @resolution_audits (fun _ => false) _ _ _ hcounters
  exact ⟨⟨audit, haudit, hbytes⟩, by decide +kernel, haccounts.omitted⟩

/-- The one attempt of a package is counted twice. -/
theorem twiceSelected_miscounted :
    (twiceSelected.attempts.filter fun attempt =>
      attempt.selections.any fun selection => selection.package = "demo").length = 1 ∧
    (packageAttempts (fun _ => false) id ["demo"] twiceSelected "demo").entries.length +
      (packageAttempts (fun _ => false) id ["demo"] twiceSelected "demo").omitted = 2 := by
  decide +kernel

end WheelForge.Jobs
