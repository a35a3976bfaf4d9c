import WheelForge.Build.Models
import WheelForge.Python.Numbers
import WheelForge.Target.Tags
import WheelForge.Validation.MemberPaths

/-!
# Wheel archives

`validateSnapshot` reads a downloaded wheel and checks its members, its core metadata and its RECORD
without extracting anything. A member is read once: METADATA and WHEEL through `ReadTracker.read`,
RECORD row by row while it is streamed, and the others after the paths of RECORD are known. What was
read of each member is kept under its portable key and compared with RECORD last.
-/

set_option autoImplicit false

namespace WheelForge.Validation

open WheelForge.Build (DownloadedWheel)
open WheelForge.Pep440 (Version)
open WheelForge.Python
open WheelForge.Target (Tag WheelPackaging)

abbrev Bytes := List UInt8

/-! ## What the libraries return -/

/-- A `zipfile.ZipInfo`; `origFilename` is the name as the archive spells it. -/
structure ZipInfo where
  origFilename : Text
  isDir : Bool
  volume : Nat
  flagBits : Nat
  externalAttr : Nat
  fileSize : Int
  compressSize : Int
deriving DecidableEq, Repr

/-- An opened member: the blocks that reading it returns, up to the empty one, and whether opening or
reading it raises after them. -/
structure MemberStream where
  blocks : List Bytes
  raises : Bool
  block_ne_nil : ∀ block ∈ blocks, block ≠ []

/-- The bytes of a member as they are streamed. -/
def MemberStream.content (stream : MemberStream) : Bytes := stream.blocks.flatten

/-- A `zipfile.ZipFile` opened for reading. -/
structure ZipFile where
  infolist : List ZipInfo
  stream : ZipInfo → MemberStream

/-- A strict `csv.reader` over the text of a byte stream. `feed` returns the rows that a block of the
stream completes, `finish` the ones after the last block; both say whether the text is well formed. -/
structure CsvReader where
  State : Type
  start : State
  feed : State → Bytes → List (List Text) × Option State
  finish : State → List (List Text) × Bool

/-- An `email.message.Message`. -/
structure Message where
  headers : List (Text × Text)
  hasDefects : Bool

/-- The library functions that validation calls. -/
structure Libraries extends WheelPackaging where
  unicode : Unicode
  csv : CsvReader
  /-- `hashlib.sha256(content).digest()`. -/
  sha256 : Bytes → Bytes
  /-- `zipfile.ZipFile(handle, "r")`; `none` is an error that the caller turns into its own. -/
  zipFile : Bytes → Option ZipFile
  /-- `BytesParser(policy=policy.strict).parsebytes(value)`; `none` is a `ValueError`. -/
  parsebytes : Bytes → Option Message
  /-- `parse_tag(text)`; `none` is a `TypeError` or a `ValueError`. -/
  parseTag : String → Option (List Tag)

/-- `value.decode("utf-8", "strict")`. -/
def decodeUtf8 (value : Bytes) : Option Text := (String.fromUTF8? ⟨value.toArray⟩).map String.toList

/-- `hexdigest` of a digest. -/
def hexdigest (digest : Bytes) : Text :=
  digest.flatMap fun byte => [Nat.digitChar (byte.toNat / 16), Nat.digitChar (byte.toNat % 16)]

/-! ## Limits and reports -/

/-- `ArchiveLimits`, with the checks of its `__post_init__`; the ratio is the value of
an integer or of a double. -/
structure ArchiveLimits where
  maxEntries : Nat
  maxTotalUncompressedBytes : Nat
  maxEntryUncompressedBytes : Nat
  maxCompressionRatio : ℚ
  entries_bounded : 1 ≤ maxEntries ∧ maxEntries ≤ 20000
  total_bounded : 1 ≤ maxTotalUncompressedBytes ∧ maxTotalUncompressedBytes ≤ 2 * 1024 ^ 3
  entry_bounded : 1 ≤ maxEntryUncompressedBytes ∧ maxEntryUncompressedBytes ≤ 512 * 1024 ^ 2
  ratio_bounded : 0 < maxCompressionRatio ∧ maxCompressionRatio ≤ 200

/-- `str(tag)`. -/
def tagStr (tag : Tag) : String := s!"{tag.interpreter}-{tag.abi}-{tag.platform}"

/-- A `DownloadedWheel` with its tag set. -/
structure ExpectedWheel extends DownloadedWheel where
  tagSet : List Tag
  tags_eq : tags = tagSet.map tagStr

/-- `ArchiveValidationReport`, without its snapshot and its constant fields. -/
structure ArchiveValidationReport where
  name : String
  version : Version
  requiresDist : List Text
  requiresPython : Option Text
  tags : List Tag
  entryCount : Nat
  totalUncompressedBytes : Nat
  name_ne_empty : name ≠ ""

/-- A `ValidatedWheelSnapshot` with the bytes of its file. -/
structure WheelSnapshot where
  content : Bytes
  byteSize : Nat
  sha256 : Text

/-- Two lists of tags that are equal as sets. -/
def sameTags (tags others : List Tag) : Bool := tags.all (· ∈ others) && others.all (· ∈ tags)

/-! ## The end records -/

/-- The unsigned number of `size` bytes at `offset`, the lowest byte first. -/
def littleEndian (bytes : Bytes) (offset size : Nat) : Nat :=
  ((bytes.drop offset).take size).foldr (fun byte number => byte.toNat + 256 * number) 0

/-- `bytes.rfind(signature)`. -/
def rfind (signature bytes : Bytes) : Option Nat :=
  (List.range (bytes.length + 1)).reverse.find? fun offset =>
    signature.isPrefixOf (bytes.drop offset)

/-- `_read_exact_at`; a file position is a signed number of 64 bits. -/
def readExactAt (content : Bytes) (offset size : Nat) : Except ArchiveError Bytes := do
  raiseIf (2 ^ 63 ≤ offset) (.unsafeWheelArchive "cannot read Wheel ZIP structure")
  let value := (content.drop offset).take size
  raiseIf (value.length ≠ size) (.unsafeWheelArchive "Wheel ZIP structure is truncated")
  return value

/-- The ZIP64 part of `_validate_zip_end_records`. -/
def validateZip64EndRecords (content : Bytes) (eocdOffset : Nat) : Except ArchiveError Unit := do
  raiseIf (eocdOffset < 20) (.unsafeWheelArchive "ZIP64 locator is missing")
  let locator ← readExactAt content (eocdOffset - 20) 20
  raiseIf (locator.take 4 ≠ [80, 75, 6, 7]) (.unsafeWheelArchive "ZIP64 locator is missing")
  raiseIf (littleEndian locator 4 4 ≠ 0 ∨ littleEndian locator 16 4 ≠ 1)
    (.unsafeWheelArchive "multi-disk ZIP64 archives are not supported")
  let zip64 ← readExactAt content (littleEndian locator 8 8) 56
  raiseIf (zip64.take 4 ≠ [80, 75, 6, 6] ∨ littleEndian zip64 4 8 < 44)
    (.unsafeWheelArchive "ZIP64 end record is malformed")
  raiseIf (littleEndian zip64 16 4 ≠ 0 ∨ littleEndian zip64 20 4 ≠ 0)
    (.unsafeWheelArchive "multi-disk ZIP64 archives are not supported")
  raiseIf (littleEndian zip64 24 8 ≠ littleEndian zip64 32 8)
    (.unsafeWheelArchive "ZIP64 per-disk entry counts disagree")

/-- `_validate_zip_end_records`. -/
def validateZipEndRecords (content : Bytes) : Except ArchiveError Unit := do
  let tailSize := min content.length (22 + 65535)
  let tail := content.drop (content.length - tailSize)
  let missing := ArchiveError.unsafeWheelArchive "Wheel ZIP end record is missing"
  let relativeOffset ← orRaise (rfind [80, 75, 5, 6] tail) missing
  raiseIf (tail.length - relativeOffset < 22) missing
  let eocdOffset := content.length - tailSize + relativeOffset
  let eocd := tail.drop relativeOffset
  raiseIf (eocdOffset + 22 + littleEndian eocd 20 2 ≠ content.length)
    (.unsafeWheelArchive "Wheel ZIP end record is malformed")
  raiseIf (littleEndian eocd 4 2 ≠ 0 ∨ littleEndian eocd 6 2 ≠ 0)
    (.unsafeWheelArchive "multi-disk ZIP archives are not supported")
  let entriesOnDisk := littleEndian eocd 8 2
  let totalEntries := littleEndian eocd 10 2
  let usesZip64 := entriesOnDisk = 0xFFFF ∨ totalEntries = 0xFFFF ∨
    littleEndian eocd 12 4 = 0xFFFFFFFF ∨ littleEndian eocd 16 4 = 0xFFFFFFFF
  if usesZip64 then
    validateZip64EndRecords content eocdOffset
  else
    raiseIf (entriesOnDisk ≠ totalEntries)
      (.unsafeWheelArchive "ZIP per-disk entry counts disagree")

variable (lib : Libraries) (limits : ArchiveLimits)

/-- `snapshot.open()`. -/
def WheelSnapshot.opened (snapshot : WheelSnapshot) : Except ArchiveError Bytes := do
  raiseIf (snapshot.content.length ≠ snapshot.byteSize)
    (.unsafeWheelArchive "validated Wheel snapshot identity changed")
  raiseIf (hexdigest (lib.sha256 snapshot.content) ≠ snapshot.sha256)
    (.unsafeWheelArchive "validated Wheel snapshot content changed")
  return snapshot.content

/-! ## Members -/

/-- The dictionary of members by their normalized name. -/
abbrev Members := List (Text × ZipInfo)

/-- The variables of the loop in `_validate_archive_members`. -/
structure MembersState where
  totalDeclared : Int
  rawNames : List Text
  topology : Topology
  result : Members

/-- The body of the loop in `_validate_archive_members`. -/
def validateMember (s : MembersState) (info : ZipInfo) : Except ArchiveError MembersState := do
  let rawName := info.origFilename
  raiseIf (rawName ∈ s.rawNames)
    (if isDistInfoCorePath lib.unicode rawName then
      .archiveMetadataError "archive contains duplicate dist-info core metadata"
    else .unsafeWheelArchive "archive contains duplicate raw member names")
  let normalized ← portablePath lib.unicode rawName info.isDir
  let topology ← insertTopology lib.unicode s.topology normalized rawName info.isDir
  raiseIf (normalized ∈ s.result.map Prod.fst)
    (.unsafeWheelArchive "archive contains a duplicate normalized member path")
  raiseIf (info.volume ≠ 0) (.unsafeWheelArchive "multi-disk ZIP members are not supported")
  raiseIf (info.flagBits &&& 0x1 ≠ 0)
    (.unsafeWheelArchive "encrypted ZIP members are not supported")
  raiseIf ((info.externalAttr >>> 16) &&& 0o170000 = 0o120000)
    (.unsafeWheelArchive "ZIP symlink members are not supported")
  raiseIf (info.fileSize < 0 ∨ info.compressSize < 0)
    (.unsafeWheelArchive "archive member size is invalid")
  raiseIf (info.isDir ∧ info.fileSize ≠ 0)
    (.unsafeWheelArchive "directory archive members must be empty")
  raiseIf (limits.maxEntryUncompressedBytes < info.fileSize)
    (.archiveResourceLimitError "archive member declared size exceeds per-entry limit")
  let totalDeclared := s.totalDeclared + info.fileSize
  raiseIf (limits.maxTotalUncompressedBytes < totalDeclared)
    (.archiveResourceLimitError "archive declared size exceeds total limit")
  raiseIf (0 < info.fileSize ∧ (info.compressSize = 0 ∨
      limits.maxCompressionRatio < trueDivision info.fileSize.toNat info.compressSize.toNat))
    (.archiveResourceLimitError "archive member compression ratio exceeds limit")
  return ⟨totalDeclared, s.rawNames ++ [rawName], topology, s.result ++ [(normalized, info)]⟩

/-- `_validate_archive_members`. -/
def validateArchiveMembers (infos : List ZipInfo) : Except ArchiveError Members := do
  raiseIf (limits.maxEntries < infos.length)
    (.archiveResourceLimitError "archive entry count exceeds limit")
  let s ← infos.foldlM (validateMember lib limits) ⟨0, [], .empty, []⟩
  return s.result

/-! ## Reading a member -/

/-- The size and the digest of what was read. -/
abbrev Observation := Nat × Bytes

/-- `_ReadTracker`. -/
structure ReadTracker where
  actualTotal : Nat
  observed : List (Text × Observation)

/-- `_check_actual_size`. -/
def checkActualSize (actualTotal memberSize : Nat) : Except ArchiveError Unit := do
  raiseIf (limits.maxEntryUncompressedBytes < memberSize)
    (.archiveResourceLimitError "member actual size exceeds per-entry limit")
  raiseIf (limits.maxTotalUncompressedBytes < actualTotal + memberSize)
    (.archiveResourceLimitError "archive actual size exceeds total limit")

/-- `dictionary[key] = value`. -/
def assign {β : Type} (dictionary : List (Text × β)) (key : Text) (value : β) : List (Text × β) :=
  if key ∈ dictionary.map Prod.fst then
    dictionary.map fun entry => if entry.1 = key then (key, value) else entry
  else dictionary ++ [(key, value)]

/-- `_ReadTracker.finish`. -/
def ReadTracker.finish (tracker : ReadTracker) (info : ZipInfo) (key : Text) (actualSize : Nat)
    (digest : Bytes) : Except ArchiveError (Observation × ReadTracker) := do
  raiseIf ((actualSize : Int) ≠ info.fileSize)
    (.unsafeWheelArchive "archive member declared size differs from streamed size")
  let observation := (actualSize, digest)
  return (observation,
    ⟨tracker.actualTotal + actualSize, assign tracker.observed key observation⟩)

/-- The loop of `_ReadTracker.read`; it returns the size of the member. -/
def readBlocks (actualTotal : Nat) (collectLimit : Option Nat) :
    Nat → List Bytes → Except ArchiveError Nat
  | actualSize, [] => return actualSize
  | actualSize, block :: blocks => do
      let actualSize := actualSize + block.length
      checkActualSize limits actualTotal actualSize
      raiseIf (collectLimit.any (· < actualSize))
        (.archiveResourceLimitError "metadata member exceeds parser memory limit")
      readBlocks actualTotal collectLimit actualSize blocks

/-- What reading a member that raises is turned into. -/
def cannotRead (info : ZipInfo) : ArchiveError :=
  .unsafeWheelArchive
    ("cannot read archive member " ++ lib.repr (String.ofList info.origFilename))

/-- `_ReadTracker.read`. -/
def ReadTracker.read (tracker : ReadTracker) (archive : ZipFile) (info : ZipInfo)
    (collectLimit : Option Nat) :
    Except ArchiveError (Option Bytes × Observation × ReadTracker) := do
  let path ← portablePath lib.unicode info.origFilename info.isDir
  let key := portableKey lib.unicode path
  match tracker.observed.lookup key with
  | some existing => return (none, existing, tracker)
  | none => do
      let stream := archive.stream info
      let actualSize ← readBlocks limits tracker.actualTotal collectLimit 0 stream.blocks
      raiseIf (stream.raises = true) (cannotRead lib info)
      let (observation, tracker) ← tracker.finish info key actualSize (lib.sha256 stream.content)
      return (if collectLimit.isSome then some stream.content else none, observation, tracker)

/-! ## The core metadata -/

/-- The directory `{distribution}-{version}.dist-info` of the expected wheel. -/
def distInfoIdentity (expected : ExpectedWheel) : Text :=
  ((lib.canonicalizeName expected.package).toList.map fun c => if c = '-' then '_' else c) ++
    "-".toList ++ expected.version.str.toList ++ ".dist-info".toList

/-- The path of the core file `coreName`. -/
def corePath (expected : ExpectedWheel) (coreName : Text) : Text :=
  distInfoIdentity lib expected ++ '/' :: coreName

/-- The body of the second loop of `_core_infos`. -/
def selectCore (members : Members) (expected : ExpectedWheel) (coreName : String) :
    Except ArchiveError ZipInfo := do
  let missing := ArchiveError.archiveMetadataError ("required " ++ coreName ++ " is missing")
  let info ← orRaise (members.lookup (corePath lib expected coreName.toList)) missing
  raiseIf (info.isDir = true) missing
  return info

/-- `_core_infos`. -/
def coreInfos (members : Members) (expected : ExpectedWheel) :
    Except ArchiveError (ZipInfo × ZipInfo × ZipInfo) := do
  let expectedValues :=
    ["METADATA", "WHEEL", "RECORD"].map fun name => corePath lib expected name.toList
  raiseIf (members.any fun member =>
      isDistInfoCorePath lib.unicode member.1 && !(expectedValues.contains member.1))
    (.archiveMetadataError "archive contains foreign dist-info core metadata")
  let metadata ← selectCore lib members expected "METADATA"
  let wheel ← selectCore lib members expected "WHEEL"
  let record ← selectCore lib members expected "RECORD"
  return (metadata, wheel, record)

/-- `_parse_headers`. -/
def parseHeaders (value : Bytes) (label : String) : Except ArchiveError Message := do
  let invalid := ArchiveError.archiveMetadataError (label ++ " is not valid UTF-8 headers")
  let _ ← orRaise (decodeUtf8 value) invalid
  let message ← orRaise (lib.parsebytes value) invalid
  raiseIf (message.hasDefects = true)
    (.archiveMetadataError (label ++ " contains malformed headers"))
  return message

/-- `message.get_all(header, [])`. -/
def Message.getAll (message : Message) (header : String) : List Text :=
  (message.headers.filter fun entry =>
    entry.1.map Char.toLower = header.toList.map Char.toLower).map Prod.snd

/-- `_singleton_header`. -/
def singletonHeader (message : Message) (header label : String) : Except ArchiveError Text :=
  match message.getAll header with
  | [value] =>
      if value = [] ∨ '\r' ∈ value ∨ '\n' ∈ value then
        .error (.archiveMetadataError (label ++ " requires one valid " ++ header ++ " header"))
      else .ok value
  | _ => .error (.archiveMetadataError (label ++ " requires one valid " ++ header ++ " header"))

/-- `_optional_singleton_header`. -/
def optionalSingletonHeader (message : Message) (header label : String) :
    Except ArchiveError (Option Text) := do
  let values := message.getAll header
  raiseIf (1 < values.length ∨ values.any fun value => '\r' ∈ value || '\n' ∈ value)
    (.archiveMetadataError (label ++ " has invalid " ++ header ++ " headers"))
  return values.head?

/-- The loop of `_reject_folded_identity`; `active` says that the line before was of an identity
header. -/
def rejectFoldedLines (names : List Text) (label : String) :
    Bool → List Text → Except ArchiveError Unit
  | _, [] => return
  | active, line :: lines => do
      raiseIf ((line.head? = some ' ' ∨ line.head? = some '\t') ∧ active = true)
        (.archiveMetadataError (label ++ " identity headers cannot be folded"))
      if line = [] then
        return
      else
        let header := line.takeWhile (· ≠ ':')
        rejectFoldedLines names label
          (':' ∈ line && lib.unicode.casefold header ∈ names) lines

/-- `_reject_folded_identity`. -/
def rejectFoldedIdentity (value : Bytes) (identities : List String) (label : String) :
    Except ArchiveError Unit :=
  rejectFoldedLines lib (identities.map String.toList) label false
    (splitLines ((decodeUtf8 value).getD []))

/-- `_parse_metadata`. -/
def parseMetadata (value : Bytes) (expected : ExpectedWheel) :
    Except ArchiveError (String × Version × List Text × Option Text) := do
  let message ← parseHeaders lib value "METADATA"
  let name ← singletonHeader message "Name" "METADATA"
  let versionValue ← singletonHeader message "Version" "METADATA"
  rejectFoldedIdentity lib value ["name", "version"] "METADATA"
  let version ← orRaise (lib.version (String.ofList versionValue))
    (.archiveMetadataError "METADATA Version is invalid")
  let canonical := lib.canonicalizeName (String.ofList name)
  raiseIf (canonical ≠ lib.canonicalizeName expected.package ∨ ¬version.Same expected.version)
    (.archiveMetadataError "METADATA identity disagrees with downloaded Wheel")
  let requiresPython ← optionalSingletonHeader message "Requires-Python" "METADATA"
  return (canonical, version, message.getAll "Requires-Dist", requiresPython)

/-- The tags of one `Tag` header. -/
def headerTags (rawTag : Text) : Except ArchiveError (List Tag) := do
  let tags ← orRaise (lib.parseTag (String.ofList rawTag))
    (.archiveMetadataError "WHEEL Tag is malformed")
  raiseIf (tags = []) (.archiveMetadataError "WHEEL Tag is malformed")
  return tags

/-- `_parse_wheel`. -/
def parseWheel (value : Bytes) (expected : ExpectedWheel) : Except ArchiveError (List Tag) := do
  let message ← parseHeaders lib value "WHEEL"
  let _ ← singletonHeader message "Wheel-Version" "WHEEL"
  let rawTags := message.getAll "Tag"
  raiseIf (rawTags = []) (.archiveMetadataError "WHEEL has no Tag headers")
  let parsed ← rawTags.mapM (headerTags lib)
  let (_, _, filenameTags) ← orRaise (lib.parseWheelFilename expected.filename)
    (.archiveMetadataError "downloaded Wheel filename is invalid")
  raiseIf (sameTags filenameTags expected.tagSet = false ∨
      sameTags parsed.flatten expected.tagSet = false)
    (.archiveMetadataError "WHEEL Tag headers disagree with downloaded Wheel tags")
  return parsed.flatten.dedup

/-! ## RECORD -/

/-- `_RecordRow`. -/
structure RecordRow where
  path : Text
  digest : Option Bytes
  size : Option Nat
deriving DecidableEq, Repr

/-- The value of a character of the URL-safe base64 alphabet. -/
def sextet (c : Char) : Option Nat :=
  if 'A' ≤ c ∧ c ≤ 'Z' then some (c.toNat - 'A'.toNat)
  else if 'a' ≤ c ∧ c ≤ 'z' then some (c.toNat - 'a'.toNat + 26)
  else if '0' ≤ c ∧ c ≤ '9' then some (c.toNat - '0'.toNat + 52)
  else if c = '-' then some 62
  else if c = '_' then some 63
  else none

/-- The bytes of sextets; a last group of three stands for two bytes. -/
def urlsafeB64Decode : List Nat → Bytes
  | a :: b :: c :: d :: rest =>
      UInt8.ofNat (a * 4 + b / 16) :: UInt8.ofNat (b % 16 * 16 + c / 4) ::
        UInt8.ofNat (c % 4 * 64 + d) :: urlsafeB64Decode rest
  | [a, b, c] => [UInt8.ofNat (a * 4 + b / 16), UInt8.ofNat (b % 16 * 16 + c / 4)]
  | _ => []

/-- The sextets of bytes, without padding. -/
def urlsafeB64Encode : Bytes → List Nat
  | x :: y :: z :: rest =>
      x.toNat / 4 :: (x.toNat % 4 * 16 + y.toNat / 16) :: (y.toNat % 16 * 4 + z.toNat / 64) ::
        z.toNat % 64 :: urlsafeB64Encode rest
  | [x, y] => [x.toNat / 4, x.toNat % 4 * 16 + y.toNat / 16, y.toNat % 16 * 4]
  | [x] => [x.toNat / 4, x.toNat % 4 * 16]
  | [] => []

/-- `_parse_record_digest`. -/
def parseRecordDigest (value : Text) : Except ArchiveError Bytes := do
  raiseIf ("sha256=".toList.isPrefixOf value = false)
    (.wheelRecordMismatch "RECORD only supports sha256 hashes")
  let encoded := value.drop 7
  let malformed := ArchiveError.wheelRecordMismatch "RECORD sha256 digest is malformed"
  raiseIf (encoded.length ≠ 43) malformed
  let sextets ← orRaise (encoded.mapM sextet) malformed
  let decoded := urlsafeB64Decode sextets
  raiseIf (decoded.length ≠ 32)
    (.wheelRecordMismatch "RECORD sha256 digest length is invalid")
  raiseIf (urlsafeB64Encode decoded ≠ sextets)
    (.wheelRecordMismatch "RECORD sha256 digest is not canonical URL-safe base64")
  return decoded

/-- `int(text)` of a text that `_DECIMAL` matches. -/
def decimal (text : Text) : Option Nat :=
  if text ≠ [] ∧ text.all Char.isDigit ∧ (text = ['0'] ∨ text.head? ≠ some '0') then
    some (text.foldl (fun number c => number * 10 + (c.toNat - '0'.toNat)) 0)
  else none

/-- `len(field.encode("utf-8"))`. -/
def encodedLength (field : Text) : Nat := (field.map Char.utf8Size).sum

/-- The path of a row, whose errors are RECORD's. -/
def recordRowPath (path : Text) : Except ArchiveError Text :=
  match portablePath lib.unicode path false with
  | .ok normalized => .ok normalized
  | .error _ => .error (.wheelRecordMismatch "RECORD path is malformed")

/-- `_parse_record_row`, once the row has three fields. -/
def parseRecordFields (path digestField sizeField recordPath : Text) (members : Members) :
    Except ArchiveError (RecordRow × Text) := do
  let normalized ← recordRowPath lib path
  let portable := portableKey lib.unicode normalized
  if portable = recordPath ∧ digestField = [] ∧ sizeField = [] then
    return (⟨normalized, none, none⟩, portable)
  else
    raiseIf (digestField = [] ∨ sizeField = [])
      (.wheelRecordMismatch "RECORD file row is missing hash or size")
    let digest ← parseRecordDigest digestField
    let size ← orRaise (decimal sizeField)
      (.wheelRecordMismatch "RECORD size is not canonical decimal")
    let member ← orRaise (members.lookup normalized)
      (.wheelRecordMismatch "RECORD path is absent from the archive")
    raiseIf ((size : Int) ≠ member.fileSize)
      (.wheelRecordMismatch "RECORD size differs from archive member size")
    return (⟨normalized, some digest, some size⟩, portable)

/-- `_parse_record_row`. -/
def parseRecordRow (row : List Text) (recordPath : Text) (members : Members) :
    Except ArchiveError (RecordRow × Text) :=
  let unbounded := ArchiveError.wheelRecordMismatch "RECORD rows must have three bounded fields"
  match row with
  | [path, digestField, sizeField] =>
      if row.any fun field => 4096 < encodedLength field then .error unbounded
      else parseRecordFields lib path digestField sizeField recordPath members
  | _ => .error unbounded

/-- The dictionary of the parsed rows by the portable key of their path. -/
abbrev RecordRows := List (Text × RecordRow)

/-- The body of the loop over the rows; each row before has an entry of its own. -/
def takeRow (recordPath : Text) (members : Members) (parsed : RecordRows) (row : List Text) :
    Except ArchiveError RecordRows := do
  raiseIf (limits.maxEntries < parsed.length + 1)
    (.wheelRecordMismatch "RECORD has too many rows")
  let (parsedRow, portable) ← parseRecordRow lib row recordPath members
  raiseIf (portable ∈ parsed.map Prod.fst)
    (.wheelRecordMismatch "RECORD has duplicate portable paths")
  return parsed ++ [(portable, parsedRow)]

/-- What a malformed RECORD is turned into. -/
def malformedRecord : ArchiveError := .wheelRecordMismatch "RECORD is malformed"

/-- The rows of RECORD while its blocks are read by `_TrackedMemberReader`; it returns the size too. -/
def streamBlocks (actualTotal : Nat) (recordPath : Text) (members : Members) :
    Nat → lib.csv.State → RecordRows → List Bytes →
      Except ArchiveError (Nat × lib.csv.State × RecordRows)
  | actualSize, state, parsed, [] => return (actualSize, state, parsed)
  | actualSize, state, parsed, block :: blocks => do
      let actualSize := actualSize + block.length
      checkActualSize limits actualTotal actualSize
      let parsed ← (lib.csv.feed state block).1.foldlM (takeRow lib limits recordPath members) parsed
      let state ← orRaise (lib.csv.feed state block).2 malformedRecord
      streamBlocks actualTotal recordPath members actualSize state parsed blocks

/-- The key of a member that is no directory. -/
def memberKey (info : ZipInfo) : Except ArchiveError Text := do
  let path ← portablePath lib.unicode info.origFilename false
  return portableKey lib.unicode path

/-- `_stream_record`. -/
def streamRecord (archive : ZipFile) (info : ZipInfo) (tracker : ReadTracker) (members : Members) :
    Except ArchiveError (RecordRows × ReadTracker) := do
  let recordPath ← memberKey lib info
  let stream := archive.stream info
  let (actualSize, state, parsed) ←
    streamBlocks lib limits tracker.actualTotal recordPath members 0 lib.csv.start [] stream.blocks
  raiseIf (stream.raises = true) (cannotRead lib info)
  let parsed ← (lib.csv.finish state).1.foldlM (takeRow lib limits recordPath members) parsed
  raiseIf ((lib.csv.finish state).2 = false) malformedRecord
  let (_, tracker) ← tracker.finish info recordPath actualSize (lib.sha256 stream.content)
  return (parsed, tracker)

/-- `_validate_record_paths`. -/
def validateRecordPaths (rows : RecordRows) (members : Members) (record : ZipInfo) :
    Except ArchiveError Unit := do
  let files := (members.filter fun member => !member.2.isDir).map fun member =>
    portableKey lib.unicode member.1
  raiseIf (¬(rows.all (fun row => row.1 ∈ files) ∧ files.all (· ∈ rows.map Prod.fst)))
    (.wheelRecordMismatch "RECORD paths do not exactly match archive files")
  let recordPath ← memberKey lib record
  raiseIf (recordPath ∉ rows.map Prod.fst)
    (.wheelRecordMismatch "RECORD does not include itself")

/-- The body of the loop in `_verify_record_hashes`. -/
def verifyRow (recordPath : Text) (tracker : ReadTracker) (entry : Text × RecordRow) :
    Except ArchiveError Unit :=
  let (portable, row) := entry
  let unread := ArchiveError.wheelRecordMismatch "RECORD path was not streamed from archive"
  if portable = recordPath ∧ row.digest = none ∧ row.size = none then .ok ()
  else
    match tracker.observed.lookup portable, row.digest, row.size with
    | some (actualSize, actualHash), some digest, some size =>
        raiseIf (actualSize ≠ size ∨ actualHash ≠ digest)
          (.wheelRecordMismatch "RECORD digest or size does not match archive content")
    | _, _, _ => .error unread

/-- `_verify_record_hashes`. -/
def verifyRecordHashes (rows : RecordRows) (record : ZipInfo) (tracker : ReadTracker) :
    Except ArchiveError Unit := do
  let recordPath ← memberKey lib record
  forM rows (verifyRow recordPath tracker)

/-! ## The archive -/

/-- `_MAX_HEADER_BYTES`. -/
def maxHeaderBytes : Nat := 4 * 1024 ^ 2

/-- The body of the loop that reads the other members. -/
def readMember (archive : ZipFile) (tracker : ReadTracker) (member : Text × ZipInfo) :
    Except ArchiveError ReadTracker :=
  if portableKey lib.unicode member.1 ∈ tracker.observed.map Prod.fst then .ok tracker
  else do
    let (_, _, tracker) ← tracker.read lib limits archive member.2 none
    return tracker

/-- What `_validate_snapshot` does with the opened archive. -/
def validateZipFile (archive : ZipFile) (expected : ExpectedWheel) :
    Except ArchiveError ArchiveValidationReport := do
  let infos := archive.infolist
  let normalized ← validateArchiveMembers lib limits infos
  let tracker : ReadTracker := ⟨0, []⟩
  let (metadataInfo, wheelInfo, recordInfo) ← coreInfos lib normalized expected
  let (metadataBytes, _, tracker) ←
    tracker.read lib limits archive metadataInfo (some maxHeaderBytes)
  let (wheelBytes, _, tracker) ← tracker.read lib limits archive wheelInfo (some maxHeaderBytes)
  let unread := ArchiveError.unsafeWheelArchive "archive core member could not be read"
  let metadataBytes ← orRaise metadataBytes unread
  let wheelBytes ← orRaise wheelBytes unread
  let wheelTags ← parseWheel lib wheelBytes expected
  let (recordRows, tracker) ← streamRecord lib limits archive recordInfo tracker normalized
  validateRecordPaths lib recordRows normalized recordInfo
  let tracker ← normalized.foldlM (readMember lib limits archive) tracker
  verifyRecordHashes lib recordRows recordInfo tracker
  let (name, version, requiresDist, requiresPython) ← parseMetadata lib metadataBytes expected
  if hname : name = "" then
    throw (.unsafeWheelArchive "invalid Wheel ZIP archive")
  else
    return {
      name := name
      version := version
      requiresDist := requiresDist
      requiresPython := requiresPython
      tags := wheelTags
      entryCount := infos.length
      totalUncompressedBytes := tracker.actualTotal
      name_ne_empty := hname }

/-- `_validate_snapshot`. -/
def validateSnapshot (snapshot : WheelSnapshot) (expected : ExpectedWheel) :
    Except ArchiveError ArchiveValidationReport := do
  let content ← snapshot.opened lib
  validateZipEndRecords content
  let archive ← orRaise (lib.zipFile content)
    (.unsafeWheelArchive "invalid Wheel ZIP archive")
  validateZipFile lib limits archive expected

end WheelForge.Validation
