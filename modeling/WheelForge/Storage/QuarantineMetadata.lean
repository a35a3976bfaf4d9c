import Mathlib.Data.List.Nodup
import WheelForge.Python.Datetime
import WheelForge.Python.JsonReading
import WheelForge.Python.Uuid
import WheelForge.Storage.Files

/-!
# The metadata of a quarantine

`_write_quarantine_metadata` stores what the delete path knows of a file that it moves into
quarantine, and `_read_quarantine_metadata` checks every field again before recovery uses it. The
checks accept everything that the program writes but a negative `sourceMtimeNs`
(`quarantine_read_iff`): the modification time of a file may be before the epoch, and the metadata of
such a file is written and then refused.
-/

set_option autoImplicit false

namespace WheelForge.Storage

open WheelForge.Python

/-! ## Fields -/

/-- An integer as Python reads it from JSON: `isinstance(True, int)`. -/
inductive PyInt where
  | int (n : Int)
  | bool (b : Bool)
deriving DecidableEq, Repr

def PyInt.value : PyInt → Int
  | .int n => n
  | .bool b => if b then 1 else 0

def PyInt.json : PyInt → JsonValue
  | .int n => .int n
  | .bool b => .bool b

inductive QuarantineOutcome where
  | conflict
  | invalid
  | held
  | deferred
deriving DecidableEq, Repr

def QuarantineOutcome.text : QuarantineOutcome → Str
  | .conflict => Str.ofString "conflict"
  | .invalid => Str.ofString "invalid"
  | .held => Str.ofString "held"
  | .deferred => Str.ofString "deferred"

/-- `_QuarantineMetadata` without the descriptor of the queue, which is not written. -/
structure QuarantineMetadata where
  quarantineId : Str
  objectKey : Str
  originalName : Str
  expectedSha256 : Str
  ownerExecutionId : Option Str
  createdAt : Datetime
  sourceDev : Option PyInt
  sourceIno : Option PyInt
  sourceSize : Option PyInt
  sourceMtimeNs : Option PyInt
  outcome : Option QuarantineOutcome
  attemptCount : PyInt
  nextAttemptAt : Option Datetime
deriving DecidableEq

/-- What the reader makes of texts that the program does not write: times of other formats, UUIDs
whose 32 characters are not all digits, and floats that equal an integer. -/
structure ReaderFormats where
  otherTime : Text → Option Datetime
  otherInt : Text → Option (Fin (2 ^ 128))
  floatEquals : Text → Int → Bool

inductive QuarantineError where
  /-- A `ValueError` of the storage. -/
  | value (message : String)
  /-- The `ValueError` of `int` for a number with too many digits. -/
  | digits
  /-- The `ValueError` of `UUID`. -/
  | uuid
  /-- The `TypeError` of a set for an unhashable value. -/
  | unhashable
deriving DecidableEq, Repr

/-! ## Object keys -/

/-- `_DRIVE_PREFIX.match`. -/
def drivePart (part : Str) : Bool :=
  match part with
  | letter :: colon :: _ =>
      colon = CodePoint.ofChar ':' &&
        ((CodePoint.ofChar 'A' ≤ letter && letter ≤ CodePoint.ofChar 'Z') ||
          (CodePoint.ofChar 'a' ≤ letter && letter ≤ CodePoint.ofChar 'z'))
  | _ => false

/-- `_object_key_parts` of a `str`. -/
def keyParts (objectKey : Str) : Except QuarantineError (List Str) :=
  if objectKey = [] ∨ CodePoint.ofChar '\x00' ∈ objectKey then
    .error (.value "object key must be a non-empty relative POSIX path")
  else if CodePoint.ofChar '\\' ∈ objectKey then
    .error (.value "object key must use relative POSIX components")
  else if (objectKey.splitOn (CodePoint.ofChar '/')).any fun part =>
      part = [] || part = Str.ofString "." || part = Str.ofString ".." || drivePart part then
    .error (.value "object key must use safe relative components")
  else .ok (objectKey.splitOn (CodePoint.ofChar '/'))

/-- `re.fullmatch(r"[0-9a-f]{64}", text)` -/
def sha256Pattern (text : Str) : Bool :=
  text.length = 64 && text.all fun c =>
    (CodePoint.ofChar '0' ≤ c && c ≤ CodePoint.ofChar '9') ||
      (CodePoint.ofChar 'a' ≤ c && c ≤ CodePoint.ofChar 'f')

/-! ## Writing -/

/-- `_MAX_QUARANTINE_METADATA_BYTES`. -/
def maxQuarantineMetadataBytes : Nat := 8192

def optionalJson {α : Type} (json : α → JsonValue) : Option α → JsonValue
  | none => .null
  | some a => json a

def timeJson (t : Datetime) : JsonValue := .string (Str.ofText (isoformat t))

/-- The object that is written, with its keys sorted. -/
def quarantineMembers (m : QuarantineMetadata) : List (Str × JsonValue) :=
  [(Str.ofString "attemptCount", m.attemptCount.json),
    (Str.ofString "createdAt", timeJson m.createdAt),
    (Str.ofString "expectedSha256", .string m.expectedSha256),
    (Str.ofString "nextAttemptAt", optionalJson timeJson m.nextAttemptAt),
    (Str.ofString "objectKey", .string m.objectKey),
    (Str.ofString "originalName", .string m.originalName),
    (Str.ofString "outcome", optionalJson (fun o => .string o.text) m.outcome),
    (Str.ofString "ownerExecutionId", optionalJson .string m.ownerExecutionId),
    (Str.ofString "quarantineId", .string m.quarantineId),
    (Str.ofString "schemaVersion", .int 2),
    (Str.ofString "sourceDev", optionalJson PyInt.json m.sourceDev),
    (Str.ofString "sourceIno", optionalJson PyInt.json m.sourceIno),
    (Str.ofString "sourceMtimeNs", optionalJson PyInt.json m.sourceMtimeNs),
    (Str.ofString "sourceSize", optionalJson PyInt.json m.sourceSize)]

/-- `_write_quarantine_metadata`: the payload that it stores. -/
def writeQuarantineMetadata (m : QuarantineMetadata) : Except QuarantineError Text := do
  let payload := dumps true (.object (quarantineMembers m))
  raiseIf (maxQuarantineMetadataBytes < utf8Size payload)
    (.value "quarantine metadata exceeds its byte limit")
  return payload

/-- The metadata that `_persist_quarantine_outcome` writes. -/
def persistQuarantineOutcome (m : QuarantineMetadata) (outcome : QuarantineOutcome) :
    QuarantineMetadata :=
  { m with
    outcome := some outcome
    attemptCount := .int (min (m.attemptCount.value + 1) 1000000) }

/-! ### The delete path -/

/-- What `fstat` tells of a regular file, in the widths of the system. -/
structure SourceStatus where
  dev : Nat
  ino : Nat
  size : Nat
  /-- `st_mtime_ns`, negative before the epoch. -/
  mtimeNs : Int
  dev_lt : dev < 2 ^ 64
  ino_lt : ino < 2 ^ 64
  size_lt : size < 2 ^ 63
  mtime_lt : mtimeNs.natAbs < 2 ^ 96

/-- `os.fsencode` encodes the text: of the surrogates it takes only the escaped bytes. -/
def fsEncodable (text : Str) : Bool :=
  text.all fun c => !(c.isHighSurrogate || c.isLowSurrogate) || (0xdc80 ≤ c.val && c.val ≤ 0xdcff)

/-- The owner group of `_GENERATED_ARTIFACT.fullmatch`. -/
def artifactOwner (objectKey : Str) : Option Str :=
  match objectKey.toText? with
  | none => none
  | some text => ((artifactMatch (String.ofList text)).bind Prod.snd).map Str.ofString

/-- `str(self._uuid_factory())`. -/
def identifierText (identifier : Fin (2 ^ 128)) : Str :=
  Str.ofText (dashed (paddedHex 32 identifier.val))

/-- The metadata of a file that is about to be moved into quarantine. -/
def deletionRecord (objectKey originalName expectedSha256 : Str) (status : SourceStatus)
    (identifier : Fin (2 ^ 128)) (now : Datetime) : QuarantineMetadata where
  quarantineId := identifierText identifier
  objectKey := objectKey
  originalName := originalName
  expectedSha256 := expectedSha256
  ownerExecutionId := artifactOwner objectKey
  createdAt := now
  sourceDev := some (.int status.dev)
  sourceIno := some (.int status.ino)
  sourceSize := some (.int status.size)
  sourceMtimeNs := some (.int status.mtimeNs)
  outcome := none
  attemptCount := .int 0
  nextAttemptAt := none

/-- The metadata that `delete_if_owned` writes for the file of an object key, unless it refuses the
key or the digest or cannot open the file. -/
def deletionMetadata (objectKey expectedSha256 : Str) (status : SourceStatus)
    (identifier : Fin (2 ^ 128)) (now : Datetime) : Option QuarantineMetadata :=
  if sha256Pattern expectedSha256 = false then none
  else
    match keyParts objectKey with
    | .error _ => none
    | .ok parts =>
        if fsEncodable objectKey = false then none
        else
          parts.getLast?.map fun originalName =>
            deletionRecord objectKey originalName expectedSha256 status identifier now

/-! ## Reading -/

def legacyKeys : List Str :=
  [Str.ofString "schemaVersion", Str.ofString "quarantineId", Str.ofString "objectKey",
    Str.ofString "originalName", Str.ofString "expectedSha256", Str.ofString "ownerExecutionId",
    Str.ofString "createdAt"]

def currentKeys : List Str :=
  legacyKeys ++ [Str.ofString "sourceDev", Str.ofString "sourceIno", Str.ofString "sourceSize",
    Str.ofString "sourceMtimeNs", Str.ofString "outcome", Str.ofString "attemptCount",
    Str.ofString "nextAttemptAt"]

/-- `set(parsed) == keys`. -/
def sameKeys (members : List (Str × JsonValue)) (keys : List Str) : Bool :=
  (keys.all fun key => decide (key ∈ members.map Prod.fst)) &&
    (members.map Prod.fst).all fun key => decide (key ∈ keys)

/-- `schema_version` if it is in `{1, 2}`. -/
def schemaVersion (formats : ReaderFormats) : JsonValue → Except QuarantineError (Option Nat)
  | .int n => .ok (if n = 1 then some 1 else if n = 2 then some 2 else none)
  | .bool b => .ok (if b then some 1 else none)
  | .float literal =>
      .ok (if formats.floatEquals literal 1 then some 1
        else if formats.floatEquals literal 2 then some 2 else none)
  | .null | .string _ => .ok none
  | .array _ | .object _ => .error .unhashable

def readText (message : String) : JsonValue → Except QuarantineError Str
  | .string s => .ok s
  | _ => .error (.value message)

/-- The owner as `str(UUID(owner))`. -/
def readOwner (formats : ReaderFormats) : JsonValue → Except QuarantineError (Option Str)
  | .null => .ok none
  | .string s => do
      let canonical ← orRaise (s.toText?.bind (canonicalUuid formats.otherInt)) .uuid
      return some (Str.ofText canonical)
  | _ => .error (.value "quarantine execution owner is invalid")

def readTime (formats : ReaderFormats) (message : String) :
    JsonValue → Except QuarantineError Datetime
  | .string s => orRaise (s.toText?.bind (fromisoformat formats.otherTime)) (.value message)
  | _ => .error (.value message)

/-- The value if it is an integer. -/
def pyInt? : JsonValue → Option PyInt
  | .int n => some (.int n)
  | .bool b => some (.bool b)
  | _ => none

def isNull : JsonValue → Bool
  | .null => true
  | _ => false

/-- `isinstance(value, int) and value >= 0`. -/
def isCount (value : JsonValue) : Bool :=
  match pyInt? value with
  | some n => decide (0 ≤ n.value)
  | none => false

/-- The check of the four values of the source. -/
def readSource (values : List JsonValue) : Except QuarantineError Unit :=
  raiseIf ((values.any fun value => !isNull value) = true ∧ (values.all isCount) = false)
    (.value "quarantine source snapshot is invalid")

def readOutcome : JsonValue → Except QuarantineError (Option QuarantineOutcome)
  | .null => .ok none
  | .string s =>
      if s = QuarantineOutcome.conflict.text then .ok (some .conflict)
      else if s = QuarantineOutcome.invalid.text then .ok (some .invalid)
      else if s = QuarantineOutcome.held.text then .ok (some .held)
      else if s = QuarantineOutcome.deferred.text then .ok (some .deferred)
      else .error (.value "quarantine outcome is invalid")
  | .array _ | .object _ => .error .unhashable
  | _ => .error (.value "quarantine outcome is invalid")

def readAttempts (value : JsonValue) : Except QuarantineError PyInt := do
  let count ← orRaise (pyInt? value) (.value "quarantine attempt count is invalid")
  raiseIf (¬(0 ≤ count.value ∧ count.value ≤ 1000000)) (.value "quarantine attempt count is invalid")
  return count

def readNextAttempt (formats : ReaderFormats) :
    JsonValue → Except QuarantineError (Option Datetime)
  | .null => .ok none
  | value => do
      let time ← readTime formats "quarantine next attempt is invalid" value
      return some time

/-- The fields of an object that passed the checks of its shape; a missing `attemptCount` is `0` and
any other missing field is `None`. -/
def readFields (formats : ReaderFormats) (parsed : JsonValue) (expectedId : Str) :
    Except QuarantineError QuarantineMetadata := do
  let field := fun key => (parsed.get? (Str.ofString key)).getD .null
  let objectKey ← readText "quarantine object key is invalid" (field "objectKey")
  let parts ← keyParts objectKey
  let originalName ← readText "quarantine original name is invalid" (field "originalName")
  raiseIf (parts.getLast? ≠ some originalName) (.value "quarantine original name is invalid")
  let expectedSha256 ← readText "quarantine digest is invalid" (field "expectedSha256")
  raiseIf (sha256Pattern expectedSha256 = false) (.value "quarantine digest is invalid")
  let owner ← readOwner formats (field "ownerExecutionId")
  let createdAt ← readTime formats "quarantine creation time is invalid" (field "createdAt")
  readSource [field "sourceDev", field "sourceIno", field "sourceSize", field "sourceMtimeNs"]
  let outcome ← readOutcome (field "outcome")
  let attemptCount ← readAttempts ((parsed.get? (Str.ofString "attemptCount")).getD (.int 0))
  let nextAttemptAt ← readNextAttempt formats (field "nextAttemptAt")
  return {
    quarantineId := expectedId
    objectKey := objectKey
    originalName := originalName
    expectedSha256 := expectedSha256
    ownerExecutionId := owner
    createdAt := createdAt
    sourceDev := pyInt? (field "sourceDev")
    sourceIno := pyInt? (field "sourceIno")
    sourceSize := pyInt? (field "sourceSize")
    sourceMtimeNs := pyInt? (field "sourceMtimeNs")
    outcome := outcome
    attemptCount := attemptCount
    nextAttemptAt := nextAttemptAt }

/-- `parsed["quarantineId"] != expected_id`. -/
def checkIdentity (expectedId : Str) : JsonValue → Except QuarantineError Unit
  | .string s => raiseIf (s ≠ expectedId) (.value "quarantine metadata identity is invalid")
  | _ => .error (.value "quarantine metadata identity is invalid")

/-- The checks of the shape, the version and the identity. -/
def checkShape (formats : ReaderFormats) (expectedId : Str) :
    JsonValue → Except QuarantineError Unit
  | .object members => do
      raiseIf (sameKeys members legacyKeys = false ∧ sameKeys members currentKeys = false)
        (.value "quarantine metadata shape is invalid")
      let field := fun key => ((JsonValue.object members).get? (Str.ofString key)).getD .null
      let version ← schemaVersion formats (field "schemaVersion")
      raiseIf (version = none) (.value "quarantine metadata identity is invalid")
      checkIdentity expectedId (field "quarantineId")
      raiseIf (version = some 1 ∧ sameKeys members legacyKeys = false)
        (.value "quarantine metadata shape is invalid")
      raiseIf (version = some 2 ∧ sameKeys members currentKeys = false)
        (.value "quarantine metadata shape is invalid")
  | _ => .error (.value "quarantine metadata shape is invalid")

/-- `json.loads` with the errors of the reader. -/
def parsePayload (payload : Text) : Except QuarantineError JsonValue :=
  match loads payload with
  | .ok value => .ok value
  | .error .decode => .error (.value "quarantine metadata is malformed")
  | .error .digits => .error .digits

/-- `_read_quarantine_metadata` on the payload of the attribute. -/
def readQuarantineMetadata (formats : ReaderFormats) (payload : Option Text) (expectedId : Str) :
    Except QuarantineError (Option QuarantineMetadata) :=
  match payload with
  | none => .ok none
  | some payload => do
      raiseIf (maxQuarantineMetadataBytes < utf8Size payload)
        (.value "quarantine metadata exceeds its byte limit")
      let parsed ← parsePayload payload
      checkShape formats expectedId parsed
      let m ← readFields formats parsed expectedId
      return some m

/-! ## Fields that are read back -/

/-- The values of an object with different keys. -/
theorem get?_of_mem {members : List (Str × JsonValue)} {key : Str} {value : JsonValue}
    (hkeys : (members.map Prod.fst).Nodup) (h : (key, value) ∈ members) :
    (JsonValue.object members).get? key = some value := by
  have hmem : (key, value) ∈ members.reverse := List.mem_reverse.2 h
  show (members.reverse.find? (·.1 = key)).map Prod.snd = some value
  cases hfind : members.reverse.find? (·.1 = key) with
  | none =>
      have hnone := List.find?_eq_none.1 hfind (key, value) hmem
      simp at hnone
  | some member =>
      have hkey : member.1 = key := by simpa using List.find?_some hfind
      have hsame : member = (key, value) :=
        List.inj_on_of_nodup_map hkeys (List.mem_reverse.1 (List.mem_of_find?_eq_some hfind)) h hkey
      rw [hsame]
      rfl

theorem quarantineMembers_keys (m : QuarantineMetadata) :
    (quarantineMembers m).map Prod.fst = [Str.ofString "attemptCount", Str.ofString "createdAt",
      Str.ofString "expectedSha256", Str.ofString "nextAttemptAt", Str.ofString "objectKey",
      Str.ofString "originalName", Str.ofString "outcome", Str.ofString "ownerExecutionId",
      Str.ofString "quarantineId", Str.ofString "schemaVersion", Str.ofString "sourceDev",
      Str.ofString "sourceIno", Str.ofString "sourceMtimeNs", Str.ofString "sourceSize"] :=
  rfl

theorem quarantineMembers_nodup (m : QuarantineMetadata) :
    ((quarantineMembers m).map Prod.fst).Nodup := by
  rw [quarantineMembers_keys]
  decide +kernel

theorem sameKeys_quarantineMembers (m : QuarantineMetadata) :
    sameKeys (quarantineMembers m) currentKeys = true := by
  unfold sameKeys
  rw [quarantineMembers_keys]
  decide +kernel

@[simp] theorem pyInt?_optionalJson (n : Option PyInt) :
    pyInt? (optionalJson PyInt.json n) = n := by
  cases n with
  | none => rfl
  | some n => cases n <;> rfl

theorem pyInt?_json (n : PyInt) : pyInt? n.json = some n := by
  cases n <;> rfl

theorem readTime_timeJson (formats : ReaderFormats) (message : String) (t : Datetime) :
    readTime formats message (timeJson t) = .ok t := by
  unfold readTime timeJson
  dsimp only
  rw [toText?_ofText, Option.bind_some, fromisoformat_isoformat]
  rfl

theorem readNextAttempt_optionalJson (formats : ReaderFormats) (t : Option Datetime) :
    readNextAttempt formats (optionalJson timeJson t) = .ok t := by
  cases t with
  | none => rfl
  | some t =>
      show (readTime formats _ (timeJson t) >>= fun time => .ok (some time)) = _
      rw [readTime_timeJson]
      rfl

theorem readOutcome_optionalJson (outcome : Option QuarantineOutcome) :
    readOutcome (optionalJson (fun o => .string o.text) outcome) = .ok outcome := by
  cases outcome with
  | none => rfl
  | some outcome => cases outcome <;> decide

/-- The owners that `str(UUID(..))` returns. -/
def CanonicalOwner (owner : Str) : Prop :=
  ∃ digits, UuidDigits digits ∧ owner = Str.ofText (dashed digits)

theorem readOwner_optionalJson (formats : ReaderFormats) {owner : Option Str}
    (h : ∀ o ∈ owner, CanonicalOwner o) :
    readOwner formats (optionalJson .string owner) = .ok owner := by
  cases owner with
  | none => rfl
  | some owner =>
      obtain ⟨digits, hdigits, rfl⟩ := h owner rfl
      show (orRaise ((Str.ofText (dashed digits)).toText?.bind (canonicalUuid formats.otherInt))
        QuarantineError.uuid >>= _) = _
      rw [toText?_ofText, Option.bind_some, hdigits.canonicalUuid_dashed]
      rfl

/-- The reader returns canonical owners. -/
theorem readOwner_canonical {formats : ReaderFormats} {value : JsonValue} {owner : Option Str}
    (h : readOwner formats value = .ok owner) : ∀ o ∈ owner, CanonicalOwner o := by
  intro o ho
  cases value with
  | null =>
      cases h
      cases ho
  | string s =>
      obtain ⟨canonical, hcanonical, h⟩ := bind_ok.1 h
      cases h
      cases ho
      obtain ⟨text, -, htext⟩ := Option.bind_eq_some_iff.1 (orRaise_ok.1 hcanonical)
      obtain ⟨digits, hdigits, rfl⟩ := canonicalUuid_some htext
      exact ⟨digits, hdigits, rfl⟩
  | _ => cases h

/-- The digits of an integer are not too many for `int`. -/
def PyInt.Readable (n : PyInt) : Prop := (Nat.toDigits 10 n.value.natAbs).length ≤ maxIntDigits

theorem PyInt.Readable.plain {n : PyInt} (h : n.Readable) : n.json.Plain := by
  cases n with
  | int n => exact h
  | bool b => trivial

theorem readable_of_lt {n : PyInt} (h : n.value.natAbs < 2 ^ 96) : n.Readable := by
  have hlt : n.value.natAbs < 10 ^ 29 := Nat.lt_of_lt_of_le h (by decide)
  have hlength := (Nat.length_toDigits_le_iff (by decide : 1 < 10) (by decide : 0 < 29)).2 hlt
  exact hlength.trans (by decide)

theorem natCast_readable {n : Nat} (h : n < 2 ^ 96) : (PyInt.int n).Readable := by
  apply readable_of_lt
  show Int.natAbs (n : Int) < 2 ^ 96
  rw [Int.natAbs_natCast]
  exact h

theorem pyInt?_readable {value : JsonValue} {n : PyInt} (hsound : value.Sound)
    (h : pyInt? value = some n) : n.Readable := by
  cases value with
  | int n =>
      cases h
      exact hsound
  | bool b =>
      cases h
      exact readable_of_lt (by cases b <;> decide)
  | _ => cases h

/-! ## Metadata that is read back -/

/-- What the reader checks, but for the sign of the source's modification time. -/
structure MetadataWellFormed (m : QuarantineMetadata) : Prop where
  id_plain : NoPair m.quarantineId
  key_plain : NoPair m.objectKey
  name_plain : NoPair m.originalName
  name : ∃ parts, keyParts m.objectKey = .ok parts ∧ parts.getLast? = some m.originalName
  digest : sha256Pattern m.expectedSha256 = true
  digest_plain : NoPair m.expectedSha256
  owner : ∀ o ∈ m.ownerExecutionId, CanonicalOwner o
  /-- All four values of the source are there, or none of them. -/
  source : (m.sourceDev = none ∧ m.sourceIno = none ∧ m.sourceSize = none ∧
      m.sourceMtimeNs = none) ∨
    ∃ dev ino size mtime, m.sourceDev = some dev ∧ m.sourceIno = some ino ∧
      m.sourceSize = some size ∧ m.sourceMtimeNs = some mtime ∧ 0 ≤ dev.value ∧ 0 ≤ ino.value ∧
      0 ≤ size.value
  source_readable : ∀ n, m.sourceDev = some n ∨ m.sourceIno = some n ∨ m.sourceSize = some n ∨
    m.sourceMtimeNs = some n → n.Readable
  attempts : 0 ≤ m.attemptCount.value ∧ m.attemptCount.value ≤ 1000000

/-- The modification time is not before the epoch. -/
def SinceEpoch (m : QuarantineMetadata) : Prop := ∀ n ∈ m.sourceMtimeNs, 0 ≤ n.value

theorem optional_plain {α : Type} {json : α → JsonValue} {value : Option α}
    (h : ∀ a, value = some a → (json a).Plain) : (optionalJson json value).Plain := by
  cases value with
  | none => trivial
  | some a => exact h a rfl

theorem timeJson_plain (t : Datetime) : (timeJson t).Plain := ofText_noPair _

theorem ok_bind {α β : Type} (a : α) (f : α → Except QuarantineError β) :
    (Except.ok a >>= f) = f a :=
  rfl

theorem checkShape_members (formats : ReaderFormats) (m : QuarantineMetadata) :
    checkShape formats m.quarantineId (.object (quarantineMembers m)) = .ok () := by
  have hversion : (JsonValue.object (quarantineMembers m)).get? (Str.ofString "schemaVersion") =
      some (.int 2) := get?_of_mem (quarantineMembers_nodup m) (by simp [quarantineMembers])
  have hid : (JsonValue.object (quarantineMembers m)).get? (Str.ofString "quarantineId") =
      some (.string m.quarantineId) :=
    get?_of_mem (quarantineMembers_nodup m) (by simp [quarantineMembers])
  unfold checkShape
  simp only [hversion, hid, Option.getD_some, sameKeys_quarantineMembers]
  exact bind_ok.2 ⟨(), raiseIf_ok.2 (by simp), bind_ok.2 ⟨some 2, rfl,
    bind_ok.2 ⟨(), raiseIf_ok.2 (by simp), bind_ok.2 ⟨(), raiseIf_ok.2 (by simp),
      bind_ok.2 ⟨(), raiseIf_ok.2 (by simp), raiseIf_ok.2 (by simp)⟩⟩⟩⟩⟩

/-- The four values of the source as they are written. -/
def sourceValues (m : QuarantineMetadata) : List JsonValue :=
  [optionalJson PyInt.json m.sourceDev, optionalJson PyInt.json m.sourceIno,
    optionalJson PyInt.json m.sourceSize, optionalJson PyInt.json m.sourceMtimeNs]

namespace MetadataWellFormed

variable {m : QuarantineMetadata} (h : MetadataWellFormed m)

include h

theorem plain : (JsonValue.object (quarantineMembers m)).Plain := by
  have hkey : ∀ key : String, NoPair (Str.ofString key) := fun key => ofText_noPair key.toList
  have hcount : m.attemptCount.json.Plain := by
    refine PyInt.Readable.plain (readable_of_lt ?_)
    have hattempts := h.attempts
    omega
  have howner : (optionalJson JsonValue.string m.ownerExecutionId).Plain := by
    apply optional_plain
    intro o ho
    obtain ⟨digits, -, rfl⟩ := h.owner o ho
    exact ofText_noPair _
  have houtcome : (optionalJson (fun o : QuarantineOutcome => JsonValue.string o.text)
      m.outcome).Plain := by
    apply optional_plain
    intro o _
    cases o <;> exact hkey _
  have hversion : (JsonValue.int 2).Plain := by
    show (Nat.toDigits 10 2).length ≤ maxIntDigits
    decide
  have hsource : ∀ value : Option PyInt, (∀ n, value = some n → n.Readable) →
      (optionalJson PyInt.json value).Plain :=
    fun value hvalue => optional_plain fun n hn => (hvalue n hn).plain
  exact ⟨⟨hkey _, hcount⟩, ⟨hkey _, timeJson_plain _⟩, ⟨hkey _, h.digest_plain⟩,
    ⟨hkey _, optional_plain fun t _ => timeJson_plain t⟩, ⟨hkey _, h.key_plain⟩,
    ⟨hkey _, h.name_plain⟩, ⟨hkey _, houtcome⟩, ⟨hkey _, howner⟩, ⟨hkey _, h.id_plain⟩,
    ⟨hkey _, hversion⟩, ⟨hkey _, hsource _ fun n hn => h.source_readable n (.inl hn)⟩,
    ⟨hkey _, hsource _ fun n hn => h.source_readable n (.inr (.inl hn))⟩,
    ⟨hkey _, hsource _ fun n hn => h.source_readable n (.inr (.inr (.inr hn)))⟩,
    ⟨hkey _, hsource _ fun n hn => h.source_readable n (.inr (.inr (.inl hn)))⟩, trivial⟩

/-- The check of the source accepts exactly the times since the epoch. -/
theorem readSource_members :
    readSource (sourceValues m) = .ok () ↔ SinceEpoch m := by
  have hnull : ∀ n : PyInt, isNull n.json = false := by
    intro n
    cases n <;> rfl
  have hcount : ∀ n : PyInt, isCount n.json = decide (0 ≤ n.value) := by
    intro n
    unfold isCount
    rw [pyInt?_json]
  unfold readSource sourceValues SinceEpoch
  rw [raiseIf_ok]
  rcases h.source with ⟨hdev, hino, hsize, hmtime⟩ |
    ⟨dev, ino, size, mtime, hdev, hino, hsize, hmtime, h₁, h₂, h₃⟩
  · rw [hdev, hino, hsize, hmtime]
    simp [optionalJson, isNull]
  · rw [hdev, hino, hsize, hmtime]
    simp [optionalJson, hnull, hcount, h₁, h₂, h₃]

/-- Every other field is read back. -/
theorem readFields_members (formats : ReaderFormats) :
    readFields formats (.object (quarantineMembers m)) m.quarantineId =
      (readSource (sourceValues m) >>= fun _ => .ok m) := by
  have hget : ∀ {key : Str} {value : JsonValue}, (key, value) ∈ quarantineMembers m →
      (JsonValue.object (quarantineMembers m)).get? key = some value :=
    fun hmem => get?_of_mem (quarantineMembers_nodup m) hmem
  have hpass : ∀ {condition : Prop} [Decidable condition] {error : QuarantineError},
      ¬condition → raiseIf condition error = .ok () := fun hnot => raiseIf_ok.2 hnot
  obtain ⟨parts, hparts, hlast⟩ := h.name
  have hcount : readAttempts m.attemptCount.json = .ok m.attemptCount := by
    unfold readAttempts
    rw [pyInt?_json]
    exact bind_ok.2 ⟨_, rfl, bind_ok.2 ⟨(), raiseIf_ok.2 (not_not.2 h.attempts), rfl⟩⟩
  have hkey : (JsonValue.object (quarantineMembers m)).get? (Str.ofString "objectKey") =
      some (.string m.objectKey) := hget (by simp [quarantineMembers])
  have hname : (JsonValue.object (quarantineMembers m)).get? (Str.ofString "originalName") =
      some (.string m.originalName) := hget (by simp [quarantineMembers])
  have hdigest : (JsonValue.object (quarantineMembers m)).get? (Str.ofString "expectedSha256") =
      some (.string m.expectedSha256) := hget (by simp [quarantineMembers])
  have howner : (JsonValue.object (quarantineMembers m)).get? (Str.ofString "ownerExecutionId") =
      some (optionalJson .string m.ownerExecutionId) := hget (by simp [quarantineMembers])
  have hcreated : (JsonValue.object (quarantineMembers m)).get? (Str.ofString "createdAt") =
      some (timeJson m.createdAt) := hget (by simp [quarantineMembers])
  have hdev : (JsonValue.object (quarantineMembers m)).get? (Str.ofString "sourceDev") =
      some (optionalJson PyInt.json m.sourceDev) := hget (by simp [quarantineMembers])
  have hino : (JsonValue.object (quarantineMembers m)).get? (Str.ofString "sourceIno") =
      some (optionalJson PyInt.json m.sourceIno) := hget (by simp [quarantineMembers])
  have hsize : (JsonValue.object (quarantineMembers m)).get? (Str.ofString "sourceSize") =
      some (optionalJson PyInt.json m.sourceSize) := hget (by simp [quarantineMembers])
  have hmtime : (JsonValue.object (quarantineMembers m)).get? (Str.ofString "sourceMtimeNs") =
      some (optionalJson PyInt.json m.sourceMtimeNs) := hget (by simp [quarantineMembers])
  have houtcome : (JsonValue.object (quarantineMembers m)).get? (Str.ofString "outcome") =
      some (optionalJson (fun o => .string o.text) m.outcome) := hget (by simp [quarantineMembers])
  have hattempts : (JsonValue.object (quarantineMembers m)).get? (Str.ofString "attemptCount") =
      some m.attemptCount.json := hget (by simp [quarantineMembers])
  have hnext : (JsonValue.object (quarantineMembers m)).get? (Str.ofString "nextAttemptAt") =
      some (optionalJson timeJson m.nextAttemptAt) := hget (by simp [quarantineMembers])
  unfold readFields
  simp only [hkey, hname, hdigest, howner, hcreated, hdev, hino, hsize, hmtime, houtcome, hattempts,
    hnext, Option.getD_some, readText, pyInt?_optionalJson]
  rw [ok_bind, hparts, ok_bind, ok_bind, hpass (not_not.2 hlast), ok_bind, ok_bind,
    hpass (by rw [h.digest]; exact Bool.noConfusion), ok_bind,
    readOwner_optionalJson formats h.owner, ok_bind, readTime_timeJson, ok_bind,
    readOutcome_optionalJson, hcount, readNextAttempt_optionalJson]
  rfl

/-- What is written is read as the check of its source says. -/
theorem read_payload (formats : ReaderFormats) {payload : Text}
    (hwrite : writeQuarantineMetadata m = .ok payload) :
    readQuarantineMetadata formats (some payload) m.quarantineId =
      (readSource (sourceValues m) >>= fun _ => .ok (some m)) := by
  obtain ⟨_, hsize, hpayload⟩ := bind_ok.1 hwrite
  cases hpayload
  unfold readQuarantineMetadata parsePayload
  dsimp only
  rw [hsize, ok_bind, loads_dumps true h.plain, ok_bind, checkShape_members, ok_bind,
    h.readFields_members]
  cases readSource (sourceValues m) <;> rfl

/-- What is written is read back exactly if the modification time is not before the epoch. -/
theorem read_iff (formats : ReaderFormats) {payload : Text}
    (hwrite : writeQuarantineMetadata m = .ok payload) :
    readQuarantineMetadata formats (some payload) m.quarantineId = .ok (some m) ↔ SinceEpoch m := by
  rw [h.read_payload formats hwrite, ← h.readSource_members]
  cases readSource (sourceValues m) with
  | error e => exact iff_of_false (fun hread => nomatch hread) (fun hok => nomatch hok)
  | ok _ => exact iff_of_true rfl rfl

/-- Metadata fits exactly if its text does. -/
theorem write_ok (hsize : (dumps true (.object (quarantineMembers m))).length ≤
    maxQuarantineMetadataBytes) :
    writeQuarantineMetadata m = .ok (dumps true (.object (quarantineMembers m))) := by
  refine bind_ok.2 ⟨(), raiseIf_ok.2 ?_, rfl⟩
  rw [(dumps_ascii true _ h.plain).utf8Size_eq]
  exact Nat.not_lt.2 hsize

end MetadataWellFormed

/-! ## What the program writes -/

/-- The check of the source leaves no values or four that are not negative. -/
theorem readSource_ok {dev ino size mtime : JsonValue}
    (h : readSource [dev, ino, size, mtime] = .ok ()) :
    (pyInt? dev = none ∧ pyInt? ino = none ∧ pyInt? size = none ∧ pyInt? mtime = none) ∨
      ∃ a b c d, pyInt? dev = some a ∧ pyInt? ino = some b ∧ pyInt? size = some c ∧
        pyInt? mtime = some d ∧ 0 ≤ a.value ∧ 0 ≤ b.value ∧ 0 ≤ c.value ∧ 0 ≤ d.value := by
  have hnull : ∀ {value : JsonValue}, isNull value = true → pyInt? value = none := by
    intro value hvalue
    cases value with
    | null => rfl
    | _ => cases hvalue
  have hcount : ∀ {value : JsonValue}, isCount value = true →
      ∃ n, pyInt? value = some n ∧ 0 ≤ n.value := by
    intro value hvalue
    unfold isCount at hvalue
    split at hvalue
    · next n hn => exact ⟨n, hn, of_decide_eq_true hvalue⟩
    · cases hvalue
  have hcheck := raiseIf_ok.1 h
  rw [not_and_or, Bool.not_eq_true, Bool.not_eq_false] at hcheck
  rcases hcheck with hall | hall
  · simp only [List.any_cons, List.any_nil, Bool.or_false, Bool.or_eq_false_iff,
      Bool.not_eq_false'] at hall
    exact .inl ⟨hnull hall.1, hnull hall.2.1, hnull hall.2.2.1, hnull hall.2.2.2⟩
  · simp only [List.all_cons, List.all_nil, Bool.and_true, Bool.and_eq_true] at hall
    obtain ⟨a, ha, ha'⟩ := hcount hall.1
    obtain ⟨b, hb, hb'⟩ := hcount hall.2.1
    obtain ⟨c, hc, hc'⟩ := hcount hall.2.2.1
    obtain ⟨d, hd, hd'⟩ := hcount hall.2.2.2
    exact .inr ⟨a, b, c, d, ha, hb, hc, hd, ha', hb', hc', hd'⟩

/-- The metadata that the reader returns is well formed and not before the epoch. -/
theorem readFields_wellFormed {formats : ReaderFormats} {parsed : JsonValue} {expectedId : Str}
    {m : QuarantineMetadata} (hsound : parsed.Sound) (hid : NoPair expectedId)
    (h : readFields formats parsed expectedId = .ok m) : MetadataWellFormed m ∧ SinceEpoch m := by
  have hfield : ∀ key, ((parsed.get? (Str.ofString key)).getD .null).Sound := by
    intro key
    cases hget : parsed.get? (Str.ofString key) with
    | none => trivial
    | some value => exact hsound.get? hget
  have htext : ∀ {message : String} {value : JsonValue} {s : Str}, value.Sound →
      readText message value = .ok s → NoPair s := by
    intro message value s hvalue hs
    cases value with
    | string s =>
        cases hs
        exact hvalue
    | _ => cases hs
  unfold readFields at h
  obtain ⟨objectKey, hkey, h⟩ := bind_ok.1 h
  obtain ⟨parts, hparts, h⟩ := bind_ok.1 h
  obtain ⟨originalName, hname, h⟩ := bind_ok.1 h
  obtain ⟨_, hlast, h⟩ := bind_ok.1 h
  obtain ⟨digest, hdigest, h⟩ := bind_ok.1 h
  obtain ⟨_, hpattern, h⟩ := bind_ok.1 h
  obtain ⟨owner, howner, h⟩ := bind_ok.1 h
  obtain ⟨createdAt, -, h⟩ := bind_ok.1 h
  obtain ⟨_, hsource, h⟩ := bind_ok.1 h
  obtain ⟨outcome, -, h⟩ := bind_ok.1 h
  obtain ⟨count, hcount, h⟩ := bind_ok.1 h
  obtain ⟨next, -, h⟩ := bind_ok.1 h
  cases h
  have hsource := readSource_ok hsource
  obtain ⟨value, hvalue, hcount⟩ := bind_ok.1 hcount
  obtain ⟨_, hattempts, hcount⟩ := bind_ok.1 hcount
  cases hcount
  have hreadable : ∀ {key : String} {n : PyInt},
      pyInt? ((parsed.get? (Str.ofString key)).getD .null) = some n → n.Readable :=
    fun hn => pyInt?_readable (hfield _) hn
  refine ⟨?_, ?_⟩
  · exact {
      id_plain := hid
      key_plain := htext (hfield _) hkey
      name_plain := htext (hfield _) hname
      name := ⟨parts, hparts, not_not.1 (raiseIf_ok.1 hlast)⟩
      digest := by simpa using raiseIf_ok.1 hpattern
      digest_plain := htext (hfield _) hdigest
      owner := readOwner_canonical howner
      source := hsource.imp_right fun ⟨a, b, c, d, ha, hb, hc, hd, ha', hb', hc', _⟩ =>
        ⟨a, b, c, d, ha, hb, hc, hd, ha', hb', hc'⟩
      source_readable := by
        rintro n (hn | hn | hn | hn)
        · exact hreadable hn
        · exact hreadable hn
        · exact hreadable hn
        · exact hreadable hn
      attempts := not_not.1 (raiseIf_ok.1 hattempts) }
  · intro n hn
    have hn : pyInt? ((parsed.get? (Str.ofString "sourceMtimeNs")).getD .null) = some n := hn
    rcases hsource with ⟨-, -, -, hnone⟩ | ⟨_, _, _, d, -, -, -, hd, -, -, -, hd'⟩
    · rw [hn] at hnone
      cases hnone
    · rw [hn] at hd
      cases hd
      exact hd'

theorem checkShape_id {formats : ReaderFormats} {parsed : JsonValue} {expectedId : Str}
    (hsound : parsed.Sound) (h : checkShape formats expectedId parsed = .ok ()) :
    NoPair expectedId := by
  cases parsed with
  | object members =>
      obtain ⟨_, -, h⟩ := bind_ok.1 h
      obtain ⟨version, -, h⟩ := bind_ok.1 h
      obtain ⟨_, -, h⟩ := bind_ok.1 h
      obtain ⟨_, hid, -⟩ := bind_ok.1 h
      dsimp only at hid
      cases hget : (JsonValue.object members).get? (Str.ofString "quarantineId") with
      | none =>
          rw [hget] at hid
          cases hid
      | some value =>
          rw [hget, Option.getD_some] at hid
          have hvalue := hsound.get? hget
          cases value with
          | string s =>
              obtain rfl : s = expectedId := not_not.1 (raiseIf_ok.1 hid)
              exact hvalue
          | _ => cases hid
  | _ => cases h

theorem readQuarantineMetadata_wellFormed {formats : ReaderFormats} {payload : Option Text}
    {expectedId : Str} {m : QuarantineMetadata}
    (h : readQuarantineMetadata formats payload expectedId = .ok (some m)) :
    MetadataWellFormed m ∧ SinceEpoch m := by
  cases payload with
  | none => cases h
  | some payload =>
      obtain ⟨_, -, h⟩ := bind_ok.1 h
      obtain ⟨parsed, hparsed, h⟩ := bind_ok.1 h
      obtain ⟨_, hshape, h⟩ := bind_ok.1 h
      obtain ⟨read, hread, h⟩ := bind_ok.1 h
      cases h
      have hsound : parsed.Sound := by
        unfold parsePayload at hparsed
        split at hparsed
        · next hloads =>
            cases hparsed
            exact loads_sound hloads
        · cases hparsed
        · cases hparsed
      exact readFields_wellFormed hsound (checkShape_id hsound hshape) hread

theorem MetadataWellFormed.persisted {m : QuarantineMetadata} (h : MetadataWellFormed m)
    (outcome : QuarantineOutcome) : MetadataWellFormed (persistQuarantineOutcome m outcome) where
  id_plain := h.id_plain
  key_plain := h.key_plain
  name_plain := h.name_plain
  name := h.name
  digest := h.digest
  digest_plain := h.digest_plain
  owner := h.owner
  source := h.source
  source_readable := h.source_readable
  attempts := by
    have hattempts := h.attempts
    show 0 ≤ min (m.attemptCount.value + 1) 1000000 ∧ min (m.attemptCount.value + 1) 1000000 ≤ 1000000
    omega

/-! ### The delete path -/

/-- Groups of lower case digits are those of a canonical UUID. -/
theorem uuidPattern_dashed {text : Text} (h : uuidPattern text = true) :
    ∃ digits, UuidDigits digits ∧ text = dashed digits := by
  unfold uuidPattern at h
  rw [Bool.and_eq_true, decide_eq_true_eq] at h
  have htext : ['-'].intercalate (text.splitOn '-') = text := List.intercalate_splitOn '-'
  obtain ⟨hlengths, hhex⟩ := h
  generalize text.splitOn '-' = groups at htext hlengths hhex
  match groups with
  | [a, b, c, d, e] =>
      simp only [List.map_cons, List.map_nil, List.cons.injEq, and_true] at hlengths
      obtain ⟨ha, hb, hc, hd, he⟩ := hlengths
      have hdrop₁ : (a ++ (b ++ (c ++ (d ++ e)))).drop 8 = b ++ (c ++ (d ++ e)) :=
        List.drop_left' ha
      have hdrop₂ : (a ++ (b ++ (c ++ (d ++ e)))).drop 12 = c ++ (d ++ e) := by
        rw [show 12 = 8 + 4 from rfl, ← List.drop_drop, hdrop₁, List.drop_left' hb]
      have hdrop₃ : (a ++ (b ++ (c ++ (d ++ e)))).drop 16 = d ++ e := by
        rw [show 16 = 12 + 4 from rfl, ← List.drop_drop, hdrop₂, List.drop_left' hc]
      have hdrop₄ : (a ++ (b ++ (c ++ (d ++ e)))).drop 20 = e := by
        rw [show 20 = 16 + 4 from rfl, ← List.drop_drop, hdrop₃, List.drop_left' hd]
      refine ⟨a ++ (b ++ (c ++ (d ++ e))), ⟨?_, ?_⟩, ?_⟩
      · simp only [List.length_append]
        omega
      · intro x hx
        have hall := List.all_eq_true.1 hhex
        simp only [List.mem_append] at hx
        rcases hx with hx | hx | hx | hx | hx
        · exact List.all_eq_true.1 (hall a (by simp)) x hx
        · exact List.all_eq_true.1 (hall b (by simp)) x hx
        · exact List.all_eq_true.1 (hall c (by simp)) x hx
        · exact List.all_eq_true.1 (hall d (by simp)) x hx
        · exact List.all_eq_true.1 (hall e (by simp)) x hx
      · unfold dashed
        rw [← htext, List.take_left' ha, hdrop₁, hdrop₂, hdrop₃, hdrop₄, List.take_left' hb,
          List.take_left' hc, List.take_left' hd]
        simp [List.intercalate]
  | [] | [_] | [_, _] | [_, _, _] | [_, _, _, _] | _ :: _ :: _ :: _ :: _ :: _ :: _ =>
      simp at hlengths

theorem artifactOwner_canonical {objectKey owner : Str} (h : artifactOwner objectKey = some owner) :
    CanonicalOwner owner := by
  unfold artifactOwner at h
  split at h
  · cases h
  · next text htext =>
      obtain ⟨uuid, huuid, rfl⟩ := Option.map_eq_some_iff.1 h
      obtain ⟨⟨task, found⟩, hmatch, hfound⟩ := Option.bind_eq_some_iff.1 huuid
      obtain rfl : found = some uuid := hfound
      have hpattern : uuidPattern uuid.toList = true := by
        unfold artifactMatch at hmatch
        split at hmatch
        · split at hmatch
          · cases hmatch
          · cases hmatch
        · split at hmatch
          · next hcheck =>
              simp only [Option.some.injEq, Prod.mk.injEq] at hmatch
              simp only [Bool.and_eq_true] at hcheck
              rw [← hmatch.2, String.toList_ofList]
              exact hcheck.1.2
          · cases hmatch
        · cases hmatch
      obtain ⟨digits, hdigits, htext⟩ := uuidPattern_dashed hpattern
      refine ⟨digits, hdigits, ?_⟩
      unfold Str.ofString
      rw [htext]

/-- A text that is encoded for the file system has no first half of a pair. -/
theorem fsEncodable_noPair {text : Str} (h : fsEncodable text = true) :
    ∀ c ∈ text, c.isHighSurrogate = false := by
  intro c hc
  have hcheck := List.all_eq_true.1 h c hc
  cases hhigh : c.isHighSurrogate with
  | false => rfl
  | true =>
      rw [hhigh, Bool.true_or, Bool.not_true, Bool.false_or, Bool.and_eq_true, decide_eq_true_eq,
        decide_eq_true_eq] at hcheck
      unfold CodePoint.isHighSurrogate at hhigh
      rw [Bool.and_eq_true, decide_eq_true_eq, decide_eq_true_eq] at hhigh
      omega

theorem sha256Pattern_noPair {text : Str} (h : sha256Pattern text = true) : NoPair text := by
  apply noPair_of_forall
  intro c hc
  unfold sha256Pattern at h
  rw [Bool.and_eq_true] at h
  have hcheck := List.all_eq_true.1 h.2 c hc
  have hlt : c.val < 0xd800 := by
    have hle : ∀ d : Char, c ≤ CodePoint.ofChar d → c.val ≤ d.toNat := fun d hd => hd
    simp only [Bool.or_eq_true, Bool.and_eq_true, decide_eq_true_eq] at hcheck
    rcases hcheck with ⟨-, hcheck⟩ | ⟨-, hcheck⟩
    · exact Nat.lt_of_le_of_lt (hle '9' hcheck) (by decide)
    · exact Nat.lt_of_le_of_lt (hle 'f' hcheck) (by decide)
  unfold CodePoint.isHighSurrogate
  rw [Bool.and_eq_false_iff, decide_eq_false_iff_not]
  exact .inl (by omega)

theorem mem_of_keyParts {objectKey : Str} {parts : List Str} (h : keyParts objectKey = .ok parts) :
    ∀ part ∈ parts, ∀ c ∈ part, c ∈ objectKey := by
  intro part hpart c hc
  unfold keyParts at h
  split at h
  · cases h
  · split at h
    · cases h
    · split at h
      · cases h
      · cases h
        have hjoined : [CodePoint.ofChar '/'].intercalate
            (objectKey.splitOn (CodePoint.ofChar '/')) = objectKey := List.intercalate_splitOn _
        rw [← hjoined]
        exact mem_intercalate_of_mem hpart hc

theorem identifierText_noPair (identifier : Fin (2 ^ 128)) : NoPair (identifierText identifier) :=
  ofText_noPair (dashed (paddedHex 32 identifier.val))

/-- The fields of a deletion pass the checks of the reader, but for the sign of the time. -/
theorem deletionRecord_wellFormed {objectKey originalName expectedSha256 : Str} {parts : List Str}
    (status : SourceStatus) (identifier : Fin (2 ^ 128)) (now : Datetime)
    (hparts : keyParts objectKey = .ok parts) (hlast : parts.getLast? = some originalName)
    (hdigest : sha256Pattern expectedSha256 = true) (hencodable : fsEncodable objectKey = true) :
    MetadataWellFormed (deletionRecord objectKey originalName expectedSha256 status identifier now) := by
  have hhigh := fsEncodable_noPair hencodable
  have hname : ∀ c ∈ originalName, c.isHighSurrogate = false := fun c hc =>
    hhigh c (mem_of_keyParts hparts _ (List.mem_of_getLast? hlast) c hc)
  constructor
  · dsimp only [deletionRecord]
    exact identifierText_noPair identifier
  · exact noPair_of_forall hhigh
  · exact noPair_of_forall hname
  · exact ⟨parts, hparts, hlast⟩
  · exact hdigest
  · exact sha256Pattern_noPair hdigest
  · intro o ho
    have howner : artifactOwner objectKey = some o := ho
    exact artifactOwner_canonical howner
  · exact .inr ⟨.int status.dev, .int status.ino, .int status.size, .int status.mtimeNs, rfl, rfl,
      rfl, rfl, Int.natCast_nonneg _, Int.natCast_nonneg _, Int.natCast_nonneg _⟩
  · have hdev := status.dev_lt
    have hino := status.ino_lt
    have hsize := status.size_lt
    rintro n (hn | hn | hn | hn) <;> obtain rfl := Option.some.inj hn
    · exact natCast_readable (by omega)
    · exact natCast_readable (by omega)
    · exact natCast_readable (by omega)
    · exact readable_of_lt status.mtime_lt
  · show (0 : Int) ≤ 0 ∧ (0 : Int) ≤ 1000000
    decide

theorem deletionMetadata_eq {objectKey originalName expectedSha256 : Str} {parts : List Str}
    (status : SourceStatus) (identifier : Fin (2 ^ 128)) (now : Datetime)
    (hparts : keyParts objectKey = .ok parts) (hlast : parts.getLast? = some originalName)
    (hdigest : sha256Pattern expectedSha256 = true) (hencodable : fsEncodable objectKey = true) :
    deletionMetadata objectKey expectedSha256 status identifier now =
      some (deletionRecord objectKey originalName expectedSha256 status identifier now) := by
  unfold deletionMetadata
  rw [if_neg (by simp [hdigest]), hparts]
  dsimp only
  rw [if_neg (by simp [hencodable]), hlast]
  rfl

/-- The delete path writes well formed metadata. -/
theorem deletionMetadata_wellFormed {objectKey expectedSha256 : Str} {status : SourceStatus}
    {identifier : Fin (2 ^ 128)} {now : Datetime} {m : QuarantineMetadata}
    (h : deletionMetadata objectKey expectedSha256 status identifier now = some m) :
    MetadataWellFormed m := by
  unfold deletionMetadata at h
  split at h
  · cases h
  · next hdigest =>
      rw [Bool.not_eq_false] at hdigest
      split at h
      · cases h
      · next parts hparts =>
          split at h
          · cases h
          · next hencodable =>
              rw [Bool.not_eq_false] at hencodable
              obtain ⟨originalName, hlast, rfl⟩ := Option.map_eq_some_iff.1 h
              exact deletionRecord_wellFormed status identifier now hparts hlast hdigest hencodable

/-- The metadata that the program writes: that of a deletion, and that of an outcome of metadata that
the reader returned. -/
inductive Written (formats : ReaderFormats) : QuarantineMetadata → Prop
  | deleted {objectKey expectedSha256 : Str} {status : SourceStatus} {identifier : Fin (2 ^ 128)}
      {now : Datetime} {m : QuarantineMetadata}
      (h : deletionMetadata objectKey expectedSha256 status identifier now = some m) :
      Written formats m
  | persisted {payload : Option Text} {expectedId : Str} {m : QuarantineMetadata}
      (outcome : QuarantineOutcome)
      (h : readQuarantineMetadata formats payload expectedId = .ok (some m)) :
      Written formats (persistQuarantineOutcome m outcome)

theorem Written.wellFormed {formats : ReaderFormats} {m : QuarantineMetadata}
    (h : Written formats m) : MetadataWellFormed m := by
  cases h with
  | deleted h => exact deletionMetadata_wellFormed h
  | persisted outcome h => exact (readQuarantineMetadata_wellFormed h).1.persisted outcome

/-- Metadata that the program writes and that fits the byte limit is read back with the same fields
exactly if the source's modification time is not before the epoch. -/
theorem quarantine_read_iff (formats : ReaderFormats) {m : QuarantineMetadata} {payload : Text}
    (h : Written formats m) (hwrite : writeQuarantineMetadata m = .ok payload) :
    readQuarantineMetadata formats (some payload) m.quarantineId = .ok (some m) ↔
      ∀ n ∈ m.sourceMtimeNs, 0 ≤ n.value :=
  h.wellFormed.read_iff formats hwrite

/-! ### Two files -/

def plainFormats : ReaderFormats := ⟨fun _ => none, fun _ => none, fun _ _ => false⟩

/-- A deletion at the start of 2026 of a file that was modified at the given time. -/
def sampleDeletion (mtimeNs : Int) (h : mtimeNs.natAbs < 2 ^ 96) : QuarantineMetadata :=
  deletionRecord (Str.ofString "artifacts/a.zip") (Str.ofString "a.zip")
    (List.replicate 64 (CodePoint.ofChar '0'))
    ⟨64769, 131073, 5, mtimeNs, by decide, by decide, by decide, h⟩ 0
    ⟨2026, 1, 1, 0, 0, 0, 0, none, by decide⟩

theorem sampleDeletion_written (mtimeNs : Int) (h : mtimeNs.natAbs < 2 ^ 96) :
    Written plainFormats (sampleDeletion mtimeNs h) := by
  have hdigest : sha256Pattern (List.replicate 64 (CodePoint.ofChar '0')) = true := by
    decide +kernel
  have hparts : keyParts (Str.ofString "artifacts/a.zip") =
      .ok [Str.ofString "artifacts", Str.ofString "a.zip"] := by
    decide +kernel
  have hencodable : fsEncodable (Str.ofString "artifacts/a.zip") = true := by decide +kernel
  exact .deleted (deletionMetadata_eq _ _ _ hparts rfl hdigest hencodable)

/-- The payload of a sample deletion fits. -/
theorem sampleDeletion_fits (mtimeNs : Int) (h : mtimeNs.natAbs < 2 ^ 96)
    (hsize : (dumps true (.object (quarantineMembers (sampleDeletion mtimeNs h)))).length ≤
      maxQuarantineMetadataBytes) :
    ∃ payload, writeQuarantineMetadata (sampleDeletion mtimeNs h) = .ok payload :=
  ⟨_, (sampleDeletion_written mtimeNs h).wellFormed.write_ok hsize⟩

/-- The metadata of a file of the year 2025 is read back. -/
theorem recentFile_read : ∃ payload,
    writeQuarantineMetadata (sampleDeletion 1750000000123456789 (by decide)) = .ok payload ∧
      readQuarantineMetadata plainFormats (some payload)
        (sampleDeletion 1750000000123456789 (by decide)).quarantineId =
          .ok (some (sampleDeletion 1750000000123456789 (by decide))) := by
  obtain ⟨payload, hwrite⟩ := sampleDeletion_fits 1750000000123456789 (by decide)
    (by decide +kernel)
  refine ⟨payload, hwrite, (quarantine_read_iff plainFormats
    (sampleDeletion_written 1750000000123456789 (by decide)) hwrite).2 ?_⟩
  intro n hn
  obtain rfl : PyInt.int 1750000000123456789 = n := Option.some.inj hn
  decide

/-- The metadata of a file that was modified in the last nanosecond before the epoch is written and
then refused. -/
theorem oldFile_unreadable : Written plainFormats (sampleDeletion (-1) (by decide)) ∧
    ∃ payload, writeQuarantineMetadata (sampleDeletion (-1) (by decide)) = .ok payload ∧
      readQuarantineMetadata plainFormats (some payload)
        (sampleDeletion (-1) (by decide)).quarantineId =
          .error (.value "quarantine source snapshot is invalid") := by
  have hwritten := sampleDeletion_written (-1) (by decide)
  obtain ⟨payload, hwrite⟩ := sampleDeletion_fits (-1) (by decide) (by decide +kernel)
  have hsource : readSource (sourceValues (sampleDeletion (-1) (by decide))) =
      .error (.value "quarantine source snapshot is invalid") := by
    decide +kernel
  refine ⟨hwritten, payload, hwrite, ?_⟩
  rw [hwritten.wellFormed.read_payload plainFormats hwrite, hsource]
  rfl

end WheelForge.Storage
