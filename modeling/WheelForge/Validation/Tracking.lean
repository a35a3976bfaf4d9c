import WheelForge.Validation.Archive
import Mathlib.Data.List.Nodup

/-!
# Reading the members of an archive

What the steps of the validation establish. `ValidMembers` says that the members have keys of their
own, `Tracked` that the tracker holds what was streamed of each member it has seen, and `RowsTaken`
that the entries of RECORD are its rows. A read keeps `Tracked` (`Tracked.read`), and so does RECORD
(`streamRecord_ok`).
-/

set_option autoImplicit false

namespace WheelForge.Validation

open WheelForge.Python

variable {lib : Libraries} {limits : ArchiveLimits} {archive : ZipFile} {expected : ExpectedWheel}
  {members : Members} {infos : List ZipInfo}

/-! ## Members -/

/-- The members by their names, which have different keys. -/
structure ValidMembers (lib : Libraries) (infos : List ZipInfo) (members : Members) : Prop where
  infos_eq : members.map Prod.snd = infos
  path_eq : ∀ member ∈ members,
    portablePath lib.unicode member.2.origFilename member.2.isDir = .ok member.1
  keys_nodup : (members.map fun member => portableKey lib.unicode member.1).Nodup

/-- The members so far, each of them in the tree of paths. -/
structure MembersTaken (lib : Libraries) (done : List ZipInfo) (s : MembersState) : Prop where
  valid : ValidMembers lib done s.result
  placed : ∀ member ∈ s.result,
    s.topology.terminalAt (foldedComponents lib.unicode member.1) ≠ none

theorem validateMember_ok {done : List ZipInfo} {info : ZipInfo} {s t : MembersState}
    (hs : MembersTaken lib done s) (h : validateMember lib limits s info = .ok t) :
    MembersTaken lib (done ++ [info]) t := by
  obtain ⟨_, -, h⟩ := bind_ok.1 h
  obtain ⟨normalized, hpath, h⟩ := bind_ok.1 h
  obtain ⟨topology, htopology, h⟩ := bind_ok.1 h
  iterate 9 obtain ⟨_, -, h⟩ := bind_ok.1 h
  cases h
  obtain ⟨hfree, htaken, hothers⟩ :=
    Topology.insert_ok (foldedComponents_ne_nil normalized) htopology
  have hnew : ∀ member ∈ s.result,
      foldedComponents lib.unicode member.1 ≠ foldedComponents lib.unicode normalized := by
    intro member hmember heq
    exact hs.placed member hmember (heq ▸ hfree)
  refine ⟨⟨by simp [hs.valid.infos_eq], ?_, ?_⟩, ?_⟩
  · intro member hmember
    rcases List.mem_append.1 hmember with hmember | hmember
    · exact hs.valid.path_eq member hmember
    · cases List.mem_singleton.1 hmember
      exact hpath
  · rw [List.map_append, List.nodup_append]
    refine ⟨hs.valid.keys_nodup, by simp, ?_⟩
    intro key hkey key' hkey' heq
    obtain ⟨member, hmember, rfl⟩ := List.mem_map.1 hkey
    simp only [List.map_cons, List.map_nil, List.mem_singleton] at hkey'
    exact hnew member hmember (foldedComponents_eq (heq.trans hkey'))
  · intro member hmember
    rcases List.mem_append.1 hmember with hmember | hmember
    · rw [hothers _ (hnew member hmember)]
      exact hs.placed member hmember
    · cases List.mem_singleton.1 hmember
      simp [htaken]

theorem validateArchiveMembers_ok (h : validateArchiveMembers lib limits infos = .ok members) :
    ValidMembers lib infos members := by
  obtain ⟨_, -, h⟩ := bind_ok.1 h
  obtain ⟨s, hs, h⟩ := bind_ok.1 h
  cases h
  have hstart : MembersTaken lib [] ⟨0, [], .empty, []⟩ := ⟨⟨rfl, by simp, by simp⟩, by simp⟩
  have hend := foldlM_ok (MembersTaken lib) (fun _ _ _ _ _ => validateMember_ok) hstart hs
  exact hend.valid

/-- The key of a member. -/
def keyOf (lib : Libraries) (info : ZipInfo) : Text := portableKey lib.unicode info.origFilename

namespace ValidMembers

variable {member other : Text × ZipInfo} {info info' : ZipInfo}

theorem name_eq (hvalid : ValidMembers lib infos members) (hmember : member ∈ members) :
    member.1 = member.2.origFilename :=
  portablePath_ok (hvalid.path_eq member hmember)

theorem keyOf_eq (hvalid : ValidMembers lib infos members) (hmember : member ∈ members) :
    portableKey lib.unicode member.1 = keyOf lib member.2 := by
  rw [hvalid.name_eq hmember, keyOf]

theorem mem_iff (hvalid : ValidMembers lib infos members) :
    info ∈ infos ↔ (info.origFilename, info) ∈ members := by
  rw [← hvalid.infos_eq, List.mem_map]
  constructor
  · rintro ⟨member, hmember, rfl⟩
    rw [← hvalid.name_eq hmember]
    exact hmember
  · intro hmember
    exact ⟨_, hmember, rfl⟩

theorem nodup_keyOf (hvalid : ValidMembers lib infos members) : (infos.map (keyOf lib)).Nodup := by
  have hkeys : infos.map (keyOf lib) =
      members.map fun member => portableKey lib.unicode member.1 := by
    rw [← hvalid.infos_eq, List.map_map]
    exact List.map_congr_left fun member hmember => (hvalid.keyOf_eq hmember).symm
  rw [hkeys]
  exact hvalid.keys_nodup

/-- A member is known by its key. -/
theorem eq_of_keyOf (hvalid : ValidMembers lib infos members) (hinfo : info ∈ infos)
    (hinfo' : info' ∈ infos) (h : keyOf lib info = keyOf lib info') : info = info' :=
  List.inj_on_of_nodup_map hvalid.nodup_keyOf hinfo hinfo' h

theorem mem_of_lookup (hvalid : ValidMembers lib infos members) {path : Text}
    (h : members.lookup path = some info) : info ∈ infos ∧ info.origFilename = path := by
  obtain ⟨before, after, rfl, -⟩ := List.lookup_eq_some_iff.1 h
  have hmember : (path, info) ∈ before ++ (path, info) :: after := by simp
  have hname : path = info.origFilename := hvalid.name_eq hmember
  refine ⟨hvalid.mem_iff.2 ?_, hname.symm⟩
  rw [← hname]
  exact hmember

end ValidMembers

/-! ## The tracker -/

theorem assign_of_notMem {β : Type} {dictionary : List (Text × β)} {key : Text} {value : β}
    (h : key ∉ dictionary.map Prod.fst) :
    assign dictionary key value = dictionary ++ [(key, value)] :=
  if_neg h

/-- The bytes of a member. -/
def ZipFile.content (archive : ZipFile) (info : ZipInfo) : Bytes := (archive.stream info).content

/-- The size of a member as it is streamed. -/
def ZipFile.sizeOf (archive : ZipFile) (info : ZipInfo) : Nat := (archive.content info).length

/-- The tracker after the members `seen` were read, each of them once and within the limits. -/
structure Tracked (lib : Libraries) (limits : ArchiveLimits) (archive : ZipFile)
    (seen : List ZipInfo) (tracker : ReadTracker) : Prop where
  observed_eq : tracker.observed = seen.map fun info =>
    (keyOf lib info, archive.sizeOf info, lib.sha256 (archive.content info))
  total_eq : tracker.actualTotal = (seen.map archive.sizeOf).sum
  total_le : tracker.actualTotal ≤ limits.maxTotalUncompressedBytes
  entry_le : ∀ info ∈ seen, archive.sizeOf info ≤ limits.maxEntryUncompressedBytes
  keys_nodup : (seen.map (keyOf lib)).Nodup

/-- What the checks of one member say of its size so far. -/
structure WithinLimits (limits : ArchiveLimits) (actualTotal size : Nat) : Prop where
  entry_le : size ≤ limits.maxEntryUncompressedBytes
  total_le : actualTotal + size ≤ limits.maxTotalUncompressedBytes

theorem checkActualSize_ok {actualTotal size : Nat} {u : Unit}
    (h : checkActualSize limits actualTotal size = .ok u) :
    WithinLimits limits actualTotal size := by
  obtain ⟨_, hentry, h⟩ := bind_ok.1 h
  rw [raiseIf_ok] at hentry h
  exact ⟨Nat.le_of_not_lt hentry, Nat.le_of_not_lt h⟩

theorem readBlocks_ok {actualTotal size total : Nat} {collectLimit : Option Nat}
    {blocks : List Bytes} (hsize : WithinLimits limits actualTotal size)
    (h : readBlocks limits actualTotal collectLimit size blocks = .ok total) :
    total = size + blocks.flatten.length ∧ WithinLimits limits actualTotal total := by
  induction blocks generalizing size with
  | nil =>
      cases h
      exact ⟨by simp, hsize⟩
  | cons block blocks ih =>
      obtain ⟨_, hcheck, h⟩ := bind_ok.1 h
      obtain ⟨_, -, h⟩ := bind_ok.1 h
      obtain ⟨htotal, hlimits⟩ := ih (checkActualSize_ok hcheck) h
      refine ⟨?_, hlimits⟩
      rw [htotal, List.flatten_cons, List.length_append]
      omega

namespace Tracked

variable {seen : List ZipInfo} {tracker tracker' : ReadTracker} {info : ZipInfo}

theorem start : Tracked lib limits archive [] ⟨0, []⟩ :=
  ⟨rfl, rfl, Nat.zero_le _, by simp, by simp⟩

theorem keys_eq (htracked : Tracked lib limits archive seen tracker) :
    tracker.observed.map Prod.fst = seen.map (keyOf lib) := by
  rw [htracked.observed_eq, List.map_map]
  rfl

theorem withinLimits (htracked : Tracked lib limits archive seen tracker) :
    WithinLimits limits tracker.actualTotal 0 :=
  ⟨Nat.zero_le _, htracked.total_le⟩

/-- What is found under the key of a member is what was streamed of it. -/
theorem lookup_eq (htracked : Tracked lib limits archive seen tracker) {key : Text}
    {observation : Observation} (h : tracker.observed.lookup key = some observation) :
    ∃ info ∈ seen, keyOf lib info = key ∧
      observation = (archive.sizeOf info, lib.sha256 (archive.content info)) := by
  obtain ⟨before, after, heq, -⟩ := List.lookup_eq_some_iff.1 h
  have hmem : (key, observation) ∈ tracker.observed := by simp [heq]
  rw [htracked.observed_eq, List.mem_map] at hmem
  obtain ⟨info, hinfo, h⟩ := hmem
  cases h
  exact ⟨info, hinfo, rfl, rfl⟩

/-- Finishing a member that was not seen. -/
theorem finish (htracked : Tracked lib limits archive seen tracker)
    (hnew : keyOf lib info ∉ seen.map (keyOf lib)) {observation : Observation}
    (hlimits : WithinLimits limits tracker.actualTotal (archive.sizeOf info))
    (h : tracker.finish info (keyOf lib info) (archive.sizeOf info)
      (lib.sha256 (archive.content info)) = .ok (observation, tracker')) :
    Tracked lib limits archive (seen ++ [info]) tracker' := by
  obtain ⟨_, -, h⟩ := bind_ok.1 h
  cases h
  constructor
  · rw [← htracked.keys_eq] at hnew
    rw [assign_of_notMem hnew, htracked.observed_eq, List.map_append]
    rfl
  · simp [htracked.total_eq]
  · exact hlimits.total_le
  · intro other hother
    rcases List.mem_append.1 hother with hother | hother
    · exact htracked.entry_le other hother
    · cases List.mem_singleton.1 hother
      exact hlimits.entry_le
  · simpa using htracked.keys_nodup.concat hnew

/-- A read leaves the member seen, and adds no other. -/
theorem read (htracked : Tracked lib limits archive seen tracker) {collectLimit : Option Nat}
    {result : Option Bytes} {observation : Observation}
    (h : tracker.read lib limits archive info collectLimit = .ok (result, observation, tracker')) :
    ∃ seen', Tracked lib limits archive seen' tracker' ∧ (seen' = seen ∨ seen' = seen ++ [info]) ∧
      keyOf lib info ∈ seen'.map (keyOf lib) := by
  obtain ⟨path, hpath, h⟩ := bind_ok.1 h
  cases portablePath_ok hpath
  dsimp only at h
  split at h
  · next existing hlookup =>
      cases h
      obtain ⟨other, hother, hkey, -⟩ := htracked.lookup_eq hlookup
      exact ⟨seen, htracked, .inl rfl, List.mem_map.2 ⟨other, hother, hkey⟩⟩
  · next hlookup =>
      change tracker.observed.lookup (keyOf lib info) = none at hlookup
      obtain ⟨size, hsize, h⟩ := bind_ok.1 h
      obtain ⟨_, -, h⟩ := bind_ok.1 h
      obtain ⟨⟨_, finished⟩, hfinish, h⟩ := bind_ok.1 h
      cases h
      obtain ⟨hlength, hlimits⟩ := readBlocks_ok htracked.withinLimits hsize
      have hlength : size = archive.sizeOf info := by rw [hlength, Nat.zero_add]; rfl
      subst hlength
      have hnew : keyOf lib info ∉ seen.map (keyOf lib) := by
        intro hkey
        rw [← htracked.keys_eq, List.mem_map] at hkey
        obtain ⟨entry, hentry, hkey⟩ := hkey
        simpa [hkey] using List.lookup_eq_none_iff.1 hlookup entry hentry
      exact ⟨_, htracked.finish hnew hlimits hfinish, .inr rfl, by simp⟩

end Tracked

/-! ## The rows -/

/-- The rows of a stream that is read from `state` on; `none` when it is malformed. -/
def CsvReader.rowsFrom (csv : CsvReader) : csv.State → List Bytes → Option (List (List Text))
  | state, [] => if (csv.finish state).2 then some (csv.finish state).1 else none
  | state, block :: blocks => do
      let next ← (csv.feed state block).2
      let rows ← csv.rowsFrom next blocks
      return (csv.feed state block).1 ++ rows

/-- The rows of a RECORD. -/
def ZipFile.recordRows (archive : ZipFile) (csv : CsvReader) (record : ZipInfo) :
    Option (List (List Text)) :=
  csv.rowsFrom csv.start (archive.stream record).blocks

/-- The rows and their entries, which have different keys. -/
structure RowsTaken (lib : Libraries) (recordPath : Text) (members : Members)
    (rows : List (List Text)) (parsed : RecordRows) : Prop where
  parsed_eq : List.Forall₂
    (fun row entry => parseRecordRow lib row recordPath members = .ok (entry.2, entry.1)) rows parsed
  keys_nodup : (parsed.map Prod.fst).Nodup

section Rows

variable {recordPath : Text} {rows done : List (List Text)} {parsed parsed' : RecordRows}
  {row : List Text}

theorem takeRow_ok (htaken : RowsTaken lib recordPath members done parsed)
    (h : takeRow lib limits recordPath members parsed row = .ok parsed') :
    RowsTaken lib recordPath members (done ++ [row]) parsed' := by
  obtain ⟨_, -, h⟩ := bind_ok.1 h
  obtain ⟨⟨parsedRow, portable⟩, hrow, h⟩ := bind_ok.1 h
  obtain ⟨_, hnew, h⟩ := bind_ok.1 h
  cases h
  rw [raiseIf_ok] at hnew
  exact ⟨List.rel_append htaken.parsed_eq (.cons hrow .nil),
    by simpa using htaken.keys_nodup.concat hnew⟩

theorem takeRows_ok (htaken : RowsTaken lib recordPath members done parsed)
    (h : rows.foldlM (takeRow lib limits recordPath members) parsed = .ok parsed') :
    RowsTaken lib recordPath members (done ++ rows) parsed' :=
  foldlM_ok (RowsTaken lib recordPath members) (fun _ _ _ _ _ => takeRow_ok) htaken h

/-- Streaming takes the rows of the stream, and counts its bytes. -/
theorem streamBlocks_ok {actualTotal size total : Nat} {state last : lib.csv.State}
    {blocks : List Bytes} (hsize : WithinLimits limits actualTotal size)
    (htaken : RowsTaken lib recordPath members done parsed)
    (h : streamBlocks lib limits actualTotal recordPath members size state parsed blocks =
      .ok (total, last, parsed')) :
    total = size + blocks.flatten.length ∧ WithinLimits limits actualTotal total ∧
      ∃ rows, RowsTaken lib recordPath members (done ++ rows) parsed' ∧
        lib.csv.rowsFrom state blocks = (lib.csv.rowsFrom last []).map (rows ++ ·) := by
  induction blocks generalizing size state parsed done with
  | nil =>
      cases h
      exact ⟨by simp, hsize, [], by simpa using htaken, by simp⟩
  | cons block blocks ih =>
      obtain ⟨_, hcheck, h⟩ := bind_ok.1 h
      obtain ⟨parsed₁, hrows, h⟩ := bind_ok.1 h
      obtain ⟨next, hnext, h⟩ := bind_ok.1 h
      rw [orRaise_ok] at hnext
      obtain ⟨htotal, hlimits, rows, htaken', hrest⟩ :=
        ih (checkActualSize_ok hcheck) (takeRows_ok htaken hrows) h
      refine ⟨?_, hlimits, (lib.csv.feed state block).1 ++ rows, ?_, ?_⟩
      · rw [htotal, List.flatten_cons, List.length_append]
        omega
      · rw [← List.append_assoc]
        exact htaken'
      · conv_lhs => rw [CsvReader.rowsFrom, hnext]
        change (lib.csv.rowsFrom next blocks).bind _ = _
        rw [hrest]
        cases lib.csv.rowsFrom last [] <;> simp

theorem recordRowPath_ok {path normalized : Text}
    (h : recordRowPath lib path = .ok normalized) : normalized = path := by
  cases hportable : portablePath lib.unicode path false with
  | ok name =>
      simp only [recordRowPath, hportable] at h
      cases h
      exact portablePath_ok hportable
  | error e => simp [recordRowPath, hportable] at h

/-- What a row with an entry is: RECORD's own without hash and size, or one of a member. -/
theorem parseRecordRow_ok {parsedRow : RecordRow} {portable : Text}
    (h : parseRecordRow lib row recordPath members = .ok (parsedRow, portable)) :
    ∃ path digestField sizeField, row = [path, digestField, sizeField] ∧
      portable = portableKey lib.unicode path ∧
      ((portable = recordPath ∧ digestField = [] ∧ sizeField = [] ∧ parsedRow.digest = none) ∨
        ∃ digest size member, parseRecordDigest digestField = .ok digest ∧
          decimal sizeField = some size ∧ members.lookup path = some member ∧
          parsedRow.digest = some digest ∧ parsedRow.size = some size) := by
  simp only [parseRecordRow] at h
  split at h
  case h_2 => cases h
  case h_1 path digestField sizeField =>
    split at h
    · cases h
    refine ⟨path, digestField, sizeField, rfl, ?_⟩
    obtain ⟨normalized, hpath, h⟩ := bind_ok.1 h
    cases recordRowPath_ok hpath
    by_cases hown : portableKey lib.unicode path = recordPath ∧ digestField = [] ∧
        sizeField = []
    · rw [if_pos hown] at h
      cases h
      exact ⟨rfl, .inl ⟨hown.1, hown.2.1, hown.2.2, rfl⟩⟩
    · rw [if_neg hown] at h
      obtain ⟨_, -, h⟩ := bind_ok.1 h
      obtain ⟨digest, hdigest, h⟩ := bind_ok.1 h
      obtain ⟨size, hsize, h⟩ := bind_ok.1 h
      obtain ⟨member, hmember, h⟩ := bind_ok.1 h
      obtain ⟨_, -, h⟩ := bind_ok.1 h
      cases h
      rw [orRaise_ok] at hsize hmember
      exact ⟨rfl, .inr ⟨digest, size, member, hdigest, hsize, hmember, rfl, rfl⟩⟩

end Rows

/-- Reading RECORD sees it, and takes its rows. -/
theorem streamRecord_ok {seen : List ZipInfo} {tracker tracker' : ReadTracker} {record : ZipInfo}
    {parsed : RecordRows} (htracked : Tracked lib limits archive seen tracker)
    (hnew : keyOf lib record ∉ seen.map (keyOf lib))
    (h : streamRecord lib limits archive record tracker members = .ok (parsed, tracker')) :
    Tracked lib limits archive (seen ++ [record]) tracker' ∧
      ∃ rows, archive.recordRows lib.csv record = some rows ∧
        RowsTaken lib (keyOf lib record) members rows parsed := by
  obtain ⟨recordPath, hpath, h⟩ := bind_ok.1 h
  obtain ⟨path, hportable, hpath⟩ := bind_ok.1 hpath
  cases hpath
  cases portablePath_ok hportable
  obtain ⟨⟨size, last, parsed₁⟩, hstream, h⟩ := bind_ok.1 h
  obtain ⟨_, -, h⟩ := bind_ok.1 h
  obtain ⟨parsed₂, hfinal, h⟩ := bind_ok.1 h
  obtain ⟨_, hformed, h⟩ := bind_ok.1 h
  obtain ⟨⟨_, finished⟩, hfinish, h⟩ := bind_ok.1 h
  cases h
  have hstart : RowsTaken lib (keyOf lib record) members [] [] := ⟨.nil, by simp⟩
  obtain ⟨hsize, hlimits, rows, htaken, hrows⟩ :=
    streamBlocks_ok htracked.withinLimits hstart hstream
  have hsize : size = archive.sizeOf record := by rw [hsize, Nat.zero_add]; rfl
  subst hsize
  refine ⟨htracked.finish hnew hlimits hfinish, rows ++ (lib.csv.finish last).1, ?_, ?_⟩
  · have hformed : (lib.csv.finish last).2 = true := by simpa using hformed
    rw [ZipFile.recordRows, hrows, CsvReader.rowsFrom, if_pos hformed]
    rfl
  · simpa using takeRows_ok htaken hfinal

end WheelForge.Validation
